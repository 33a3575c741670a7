import FreeDV.Lib.Fold
import FreeDV.Pipeline.ParityCheckMatrix
import FreeDV.Pipeline.LdpcEncode
import FreeDV.Pipeline.LdpcDecode
import FreeDV.Pipeline.LdpcProperties
import FreeDV.Pipeline.LdpcExact
import FreeDV.Pipeline.RadeText
import FreeDV.Pipeline.LdpcDemapper
import FreeDV.Pipeline.RadeTextProperties
import FreeDV.Lib.Transition
import FreeDV.Lib.Csv
import FreeDV.Lib.Memory
import FreeDV.Lib.Bytes
import FreeDV.Lib.Ipfix
import FreeDV.Reporting.PskReporter
import FreeDV.Reporting.PskReporterProperties
import FreeDV.Reporting.FreeDVReporter
import FreeDV.Reporting.FreeDVReporterProperties
import FreeDV.Reporting.FreeDVReporterReplay
import FreeDV.Reporting.CsvReporter
import FreeDV.Reporting.CsvReporterProperties
import FreeDV.Util.UlogFormat
import FreeDV.Util.UlogFormatProperties
import FreeDV.Lib.Ring
import FreeDV.Lib.Simulation
import FreeDV.Lib.Heap
import FreeDV.Lib.Blocks
import FreeDV.Util.GenericFifo
import FreeDV.Util.GenericFifoProperties
import FreeDV.Util.GenericFifoSteady
import FreeDV.Util.GenericFifoSequential
import FreeDV.Util.GenericFifoCalls
import FreeDV.Util.GenericFifoSequentialProperties
import FreeDV.Util.GenericFifoQueue
import FreeDV.Util.UlogRing
import FreeDV.Util.UlogRingProperties
import FreeDV.Util.UlogRingRuns
import FreeDV.Util.UlogAsync
import FreeDV.Util.UlogAsyncProperties
import FreeDV.Util.UlogAsyncAccounting
import FreeDV.Util.UlogAsyncFlush
import FreeDV.Util.TcpConnect
import FreeDV.Util.TcpConnectProperties
import FreeDV.Util.TcpHandler
import FreeDV.Util.TcpHandlerSteps
import FreeDV.Util.TcpHandlerProperties
import FreeDV.Util.TcpHandlerCallbacks
import FreeDV.Util.TcpHandlerReconnect
import FreeDV.Util.TcpResources
import FreeDV.Util.TcpResourcesProperties
import FreeDV.Util.TcpSend
import FreeDV.Util.ThreadedTimer
import FreeDV.Util.ThreadedTimerProperties
import FreeDV.Util.ThreadedTimerStop
import FreeDV.Util.ThreadedObject
import FreeDV.Util.ThreadedObjectProperties
import FreeDV.Pipeline.BlockSteps
import FreeDV.Pipeline.BlockStepsProperties
import FreeDV.Pipeline.RadeReceiveStep
import FreeDV.Pipeline.RadeReceiveStepProperties
import FreeDV.Pipeline.RadeReceiveStepBounds
import FreeDV.Pipeline.RadeTransmitStep
import FreeDV.Pipeline.RadeTransmitStepProperties
import FreeDV.Pipeline.TapStep
import FreeDV.Pipeline.TapStepDrops
import FreeDV.Pipeline.TapStepDelivery
import FreeDV.Pipeline.AudioPipeline
import FreeDV.Pipeline.MinimalTxRxThread
import FreeDV.Pipeline.MinimalTxRxThreadEoo
import FreeDV.Pipeline.RadeTransmitStepRuns
import FreeDV.Pipeline.AudioPipelineProperties
import FreeDV.Pipeline.MinimalTxRxThreadOvers
import FreeDV.Pipeline.MinimalTxRxThreadLockstep
import FreeDV.Lib.Depth
import FreeDV.Lib.Json
import FreeDV.Util.SocketIoClient
import FreeDV.Reporting.FreeDVReporterBulkUpdate
import FreeDV.Pipeline.AudioPipelineRates
import FreeDV.Pipeline.AudioPipelineRatesProperties
import FreeDV.Pipeline.RadeTextCrc
import FreeDV.Pipeline.RadeTextFlips
import FreeDV.Util.GenericFifoEndpoints
import FreeDV.Util.UlogFormatBounds
import FreeDV.Lib.Linearization
import FreeDV.Util.GenericFifoLinearization
import FreeDV.Pipeline.RadeTextNoise
import FreeDV.Pipeline.RxPipeline
import FreeDV.Pipeline.MinimalTxRxThreadReceive
import FreeDV.Pipeline.MinimalTxRxThreadReception
import FreeDV.Lib.SumProduct
import FreeDV.Pipeline.LdpcCorrection
import FreeDV.Pipeline.LdpcDistance
import FreeDV.Lib.Portions
import FreeDV.Pipeline.RadeReceiveStepChunks
import FreeDV.Pipeline.LinkStep
import FreeDV.Lib.CriticalSection
import FreeDV.Util.AudioSpinMutex
import FreeDV.Lib.JsonFields
import FreeDV.Reporting.FreeDVReporterEvents
import FreeDV.Reporting.FreeDVReporterWire
import FreeDV.Reporting.FreeDVReporterWireProperties
import FreeDV.Lib.History
import FreeDV.Pipeline.MinimalTxRxThreadTransmission
import FreeDV.Lib.Messages
import FreeDV.Util.TcpHandlerWire
