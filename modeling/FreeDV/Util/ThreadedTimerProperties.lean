import FreeDV.Util.ThreadedTimer
import Mathlib.Data.List.Chain
import Mathlib.Data.List.Perm.Lattice

/-!
# The schedule

Whatever clients and callbacks do, the queue is a heap of the running timers,
each in it once. The key of a timer only changes while the timer is out of the
queue, so the comparisons between the others stay as they are.
-/

set_option autoImplicit false

namespace FreeDV.Util.ThreadedTimer

open FreeDV.Lib
open FreeDV.Lib.Heap

variable {τ : Type} {s s' : State τ}

/-! ## Comparisons -/

theorem fireTimeComparator_eq_false_iff {timers : τ → Timer} {lhs rhs : τ} :
    fireTimeComparator timers lhs rhs = false ↔
      (timers lhs).nextFireTime ≤ (timers rhs).nextFireTime := by
  simp [fireTimeComparator]

theorem fireTimeComparator_order (timers : τ → Timer) :
    StrictWeakOrder (fireTimeComparator timers) where
  asymm a b := by
    simp only [fireTimeComparator, gt_iff_lt, decide_eq_true_eq, decide_eq_false_iff_not]
    omega
  negTrans a b c := by
    simp only [fireTimeComparator_eq_false_iff]
    omega

variable [DecidableEq τ] (heap : HeapOps τ)

theorem isHeap_update {timers : τ → Timer} {timer : τ} {range : List τ} (value : Timer)
    (isHeap : IsHeap (fireTimeComparator timers) range) (outside : timer ∉ range) :
    IsHeap (fireTimeComparator (Function.update timers timer value)) range := by
  apply isHeap.congr
  intro a aMember b bMember
  have aOther : a ≠ timer := fun same => outside (same ▸ aMember)
  have bOther : b ≠ timer := fun same => outside (same ▸ bMember)
  rw [fireTimeComparator, fireTimeComparator, Function.update_of_ne aOther,
    Function.update_of_ne bOther]

/-! ## Operations on the queue -/

/-- The queue as a heap without repetitions. -/
structure QueueOk (timers : τ → Timer) (queue : List τ) : Prop where
  nodup : queue.Nodup
  isHeap : IsHeap (fireTimeComparator timers) queue

theorem removeLocked_eq (timer : τ) (ok : QueueOk s.timers s.timerQueue) :
    ∃ queue, removeLocked heap s timer = { s with timerQueue := queue } ∧
      queue.Perm (s.timerQueue.erase timer) ∧ timer ∉ queue ∧ QueueOk s.timers queue := by
  have absent : timer ∉ s.timerQueue.erase timer := ok.nodup.not_mem_erase
  unfold removeLocked
  split
  case isTrue member =>
    have same := heap.makeHeap_perm (fireTimeComparator s.timers) (s.timerQueue.erase timer)
    refine ⟨_, rfl, same, fun member => absent (same.mem_iff.mp member), ?_, ?_⟩
    · exact same.nodup_iff.mpr (ok.nodup.erase timer)
    · exact heap.makeHeap_isHeap _ _ (fireTimeComparator_order s.timers)
  case isFalse outside =>
    refine ⟨s.timerQueue, rfl, ?_, outside, ok⟩
    rw [List.erase_of_not_mem outside]

theorem QueueOk.push {timers : τ → Timer} {queue : List τ} {timer : τ} (value : Timer)
    (ok : QueueOk timers queue) (outside : timer ∉ queue) :
    let timers := Function.update timers timer value
    let pushed := heap.pushHeap (fireTimeComparator timers) (queue ++ [timer])
    pushed.Perm (timer :: queue) ∧ QueueOk timers pushed := by
  intro timers' pushed
  have same : pushed.Perm (timer :: queue) :=
    (heap.pushHeap_perm _ _).trans (List.perm_append_singleton timer queue)
  refine ⟨same, same.nodup_iff.mpr (List.nodup_cons.mpr ⟨outside, ok.nodup⟩), ?_⟩
  exact heap.pushHeap_isHeap _ _ _ (fireTimeComparator_order timers')
    (isHeap_update value ok.isHeap outside)

/-- The schedule `registerTimer` gives to a timer. -/
def registered (s : State τ) (timer : τ) (intervalMs : Int) (repeats : Bool) : Timer :=
  { s.timers timer with
    scheduledIntervalMs := intervalMs
    scheduledRepeat := repeats
    nextFireTime := s.now + milliseconds intervalMs
    isRunning := true }

theorem registerTimer_eq (timer : τ) (intervalMs : Int) (repeats : Bool)
    (ok : QueueOk s.timers s.timerQueue) :
    ∃ queue, registerTimer heap s timer intervalMs repeats = { s with
        timers := Function.update s.timers timer (registered s timer intervalMs repeats)
        timerQueue := queue
        fireTimes := Function.update s.fireTimes timer [s.now + milliseconds intervalMs]
        fires := Function.update s.fires timer 0 } ∧
      queue.Perm (timer :: s.timerQueue.erase timer) ∧
      QueueOk (Function.update s.timers timer (registered s timer intervalMs repeats)) queue := by
  obtain ⟨removed, equation, same, outside, removedOk⟩ := removeLocked_eq heap timer ok
  obtain ⟨pushed, pushedOk⟩ := removedOk.push heap
    (registered s timer intervalMs repeats) outside
  refine ⟨_, ?_, pushed.trans (same.cons timer), pushedOk⟩
  rw [registerTimer, equation]
  rfl

theorem unregisterTimer_eq (timer : τ) (ok : QueueOk s.timers s.timerQueue) :
    ∃ queue, unregisterTimer heap s timer = { s with
        timers := Function.update s.timers timer { s.timers timer with isRunning := false }
        timerQueue := queue } ∧
      queue.Perm (s.timerQueue.erase timer) ∧ timer ∉ queue ∧
      QueueOk (Function.update s.timers timer { s.timers timer with isRunning := false }) queue := by
  obtain ⟨queue, equation, same, outside, ok⟩ := removeLocked_eq heap timer ok
  refine ⟨queue, ?_, same, outside, ok.nodup, isHeap_update _ ok.isHeap outside⟩
  rw [unregisterTimer, equation]
  rfl

/-- The schedule of the timer that fires. -/
def rescheduled (scheduled : Timer) : Timer :=
  if scheduled.scheduledRepeat then
    { scheduled with
      nextFireTime := scheduled.nextFireTime + milliseconds scheduled.scheduledIntervalMs }
  else { scheduled with isRunning := false }

def firedTimes (scheduled : Timer) (fireTimes : List Int) : List Int :=
  if scheduled.scheduledRepeat then fireTimes ++ [(rescheduled scheduled).nextFireTime]
  else fireTimes

theorem fireFront_eq {front : τ} {rest : List τ} (found : s.timerQueue = front :: rest)
    (ok : QueueOk s.timers s.timerQueue) :
    ∃ queue, fireFront heap s = some { s with
        timers := Function.update s.timers front (rescheduled (s.timers front))
        timerQueue := queue
        fireTimes := Function.update s.fireTimes front
          (firedTimes (s.timers front) (s.fireTimes front))
        fires := Function.update s.fires front (s.fires front + 1)
        firingTimer := some front
        thread := .firing front } ∧
      queue.Perm (if (s.timers front).scheduledRepeat then front :: rest else rest) ∧
      QueueOk (Function.update s.timers front (rescheduled (s.timers front))) queue := by
  have isHeap := ok.isHeap
  have nodup := ok.nodup
  rw [found] at isHeap nodup
  obtain ⟨others, popped, same, othersHeap⟩ :=
    heap.popHeap_spec _ _ _ (fireTimeComparator_order s.timers) isHeap
  have outside : front ∉ others := by
    intro member
    exact (List.nodup_cons.mp nodup).1 (same.mem_iff.mp member)
  have othersOk : QueueOk s.timers others :=
    ⟨same.nodup_iff.mpr (List.nodup_cons.mp nodup).2, othersHeap⟩
  rw [fireFront, found, popped]
  simp only [List.getLast?_append, List.getLast?_singleton, Option.some_or, List.dropLast_concat]
  cases repeats : (s.timers front).scheduledRepeat with
  | true =>
      obtain ⟨pushed, pushedOk⟩ := othersOk.push heap (rescheduled (s.timers front)) outside
      refine ⟨_, ?_, pushed.trans (same.cons front), pushedOk⟩
      simp only [rescheduled, firedTimes, repeats, if_true]
      rfl
  | false =>
      refine ⟨others, ?_, same, othersOk.nodup, isHeap_update _ othersHeap outside⟩
      simp [rescheduled, firedTimes, repeats, setTimer]

/-! ## The invariant -/

structure SchedulingOk (s : State τ) : Prop where
  queue : QueueOk s.timers s.timerQueue
  running : ∀ timer, (s.timers timer).isRunning = true ↔ timer ∈ s.timerQueue
  oneShot : ∀ timer, (s.timers timer).scheduledRepeat = false →
    s.fires timer + (if timer ∈ s.timerQueue then 1 else 0) ≤ 1
  last : ∀ timer value, (s.fireTimes timer).getLast? = some value →
    (s.timers timer).nextFireTime = value
  spacing : ∀ timer, (s.fireTimes timer).IsChain fun first second =>
    second = first + milliseconds (s.timers timer).scheduledIntervalMs

theorem SchedulingOk.keep (ok : SchedulingOk s) (timers : s'.timers = s.timers)
    (timerQueue : s'.timerQueue = s.timerQueue) (fireTimes : s'.fireTimes = s.fireTimes)
    (fires : s'.fires = s.fires) : SchedulingOk s' where
  queue := by rw [timers, timerQueue]; exact ok.queue
  running := by rw [timers, timerQueue]; exact ok.running
  oneShot := by rw [timers, timerQueue, fires]; exact ok.oneShot
  last := by rw [timers, fireTimes]; exact ok.last
  spacing := by rw [timers, fireTimes]; exact ok.spacing

/-- All operations change one timer and whether it is in the queue. -/
theorem SchedulingOk.update (ok : SchedulingOk s) {timer : τ} {value : Timer} {times : List Int}
    {count : Nat} (timers : s'.timers = Function.update s.timers timer value)
    (fireTimes : s'.fireTimes = Function.update s.fireTimes timer times)
    (fires : s'.fires = Function.update s.fires timer count)
    (queue : QueueOk s'.timers s'.timerQueue)
    (others : ∀ other, other ≠ timer → (other ∈ s'.timerQueue ↔ other ∈ s.timerQueue))
    (running : value.isRunning = true ↔ timer ∈ s'.timerQueue)
    (oneShot : value.scheduledRepeat = false →
      count + (if timer ∈ s'.timerQueue then 1 else 0) ≤ 1)
    (last : ∀ latest, times.getLast? = some latest → value.nextFireTime = latest)
    (spacing : times.IsChain fun first second =>
      second = first + milliseconds value.scheduledIntervalMs) : SchedulingOk s' := by
  refine ⟨queue, ?_, ?_, ?_, ?_⟩
  all_goals
    intro other
    by_cases same : other = timer
  · subst same
    rw [timers, Function.update_self]
    exact running
  · rw [timers, Function.update_of_ne same, others other same]
    exact ok.running other
  · subst same
    rw [timers, fires, Function.update_self, Function.update_self]
    exact oneShot
  · simp only [timers, fires, Function.update_of_ne same, others other same]
    exact ok.oneShot other
  · subst same
    rw [timers, fireTimes, Function.update_self, Function.update_self]
    exact last
  · rw [timers, fireTimes, Function.update_of_ne same, Function.update_of_ne same]
    exact ok.last other
  · subst same
    rw [timers, fireTimes, Function.update_self, Function.update_self]
    exact spacing
  · rw [timers, fireTimes, Function.update_of_ne same, Function.update_of_ne same]
    exact ok.spacing other

theorem mem_erase_of_ne {queue range : List τ} {timer other : τ}
    (same : queue.Perm (range.erase timer)) (ne : other ≠ timer) :
    other ∈ queue ↔ other ∈ range := by
  rw [same.mem_iff]
  exact List.mem_erase_of_ne ne

theorem SchedulingOk.register (ok : SchedulingOk s) (timer : τ) (intervalMs : Int)
    (repeats : Bool) : SchedulingOk (registerTimer heap s timer intervalMs repeats) := by
  obtain ⟨queue, equation, same, queueOk⟩ :=
    registerTimer_eq heap timer intervalMs repeats ok.queue
  have member : timer ∈ queue := same.mem_iff.mpr List.mem_cons_self
  rw [equation]
  refine ok.update rfl rfl rfl queueOk ?_ ⟨fun _ => member, fun _ => rfl⟩ ?_ ?_ (.singleton _)
  · intro other ne
    rw [same.mem_iff, List.mem_cons, or_iff_right ne]
    exact List.mem_erase_of_ne ne
  · intro _
    rw [if_pos member]
  · intro latest found
    cases found
    rfl

theorem SchedulingOk.unregister (ok : SchedulingOk s) (timer : τ) :
    SchedulingOk (unregisterTimer heap s timer) := by
  obtain ⟨queue, equation, same, outside, queueOk⟩ := unregisterTimer_eq heap timer ok.queue
  rw [equation]
  refine ok.update rfl (Function.update_eq_self timer s.fireTimes).symm
    (Function.update_eq_self timer s.fires).symm queueOk
    (fun other ne => mem_erase_of_ne same ne) ?_ ?_ (ok.last timer) (ok.spacing timer)
  · constructor
    · intro running
      cases running
    · intro member
      exact absurd member outside
  · intro single
    have bound := ok.oneShot timer single
    rw [if_neg outside]
    omega

theorem SchedulingOk.fire (ok : SchedulingOk s) {front : τ} {rest : List τ}
    (found : s.timerQueue = front :: rest) (taken : fireFront heap s = some s') :
    SchedulingOk s' := by
  obtain ⟨queue, equation, same, queueOk⟩ := fireFront_eq heap found ok.queue
  rw [equation, Option.some.injEq] at taken
  subst taken
  have member : front ∈ s.timerQueue := found ▸ List.mem_cons_self
  have outside : front ∉ rest := (List.nodup_cons.mp (found ▸ ok.queue.nodup)).1
  have others : ∀ other, other ≠ front → (other ∈ queue ↔ other ∈ s.timerQueue) := by
    intro other ne
    rw [same.mem_iff, found, List.mem_cons]
    split
    · exact List.mem_cons
    · exact (or_iff_right ne).symm
  cases repeats : (s.timers front).scheduledRepeat with
  | true =>
      rw [repeats, if_pos rfl] at same
      have stays : front ∈ queue := same.mem_iff.mpr List.mem_cons_self
      have running : (s.timers front).isRunning = true := (ok.running front).mpr member
      refine ok.update rfl rfl rfl queueOk others ?_ ?_ ?_ ?_
      · simp only [rescheduled, repeats, if_true, running, stays]
      · intro single
        simp only [rescheduled, repeats, if_true] at single
        cases single
      · intro latest lastOne
        simpa [firedTimes, repeats] using lastOne
      · simp only [firedTimes, rescheduled, repeats, if_true]
        rw [List.isChain_append]
        refine ⟨ok.spacing front, .singleton _, ?_⟩
        intro first isLast second isNext
        cases isNext
        rw [ok.last front first isLast]
  | false =>
      rw [repeats, if_neg Bool.false_ne_true] at same
      have leaves : front ∉ queue := fun inside => outside (same.mem_iff.mp inside)
      have none_yet := ok.oneShot front repeats
      rw [if_pos member] at none_yet
      refine ok.update rfl rfl rfl queueOk others ?_ ?_ ?_ ?_
      · simp [rescheduled, repeats, leaves]
      · intro _
        rw [if_neg leaves]
        omega
      · simpa [firedTimes, rescheduled, repeats] using ok.last front
      · simpa [firedTimes, rescheduled, repeats] using ok.spacing front

theorem SchedulingOk.configure (ok : SchedulingOk s) (timer : τ) (value : Timer)
    (isRunning : value.isRunning = (s.timers timer).isRunning)
    (nextFireTime : value.nextFireTime = (s.timers timer).nextFireTime)
    (interval : value.scheduledIntervalMs = (s.timers timer).scheduledIntervalMs)
    (repeats : value.scheduledRepeat = (s.timers timer).scheduledRepeat) :
    SchedulingOk (setTimer s timer value) := by
  have comparator : fireTimeComparator (Function.update s.timers timer value) =
      fireTimeComparator s.timers := by
    have times (other : τ) : (Function.update s.timers timer value other).nextFireTime =
        (s.timers other).nextFireTime := by
      by_cases same : other = timer
      · rw [same, Function.update_self, nextFireTime]
      · rw [Function.update_of_ne same]
    funext lhs rhs
    rw [fireTimeComparator, fireTimeComparator, times, times]
  refine ok.update rfl (Function.update_eq_self timer s.fireTimes).symm
    (Function.update_eq_self timer s.fires).symm ⟨ok.queue.nodup, ?_⟩ (fun _ _ => Iff.rfl) ?_ ?_ ?_ ?_
  · rw [setTimer, comparator]
    exact ok.queue.isHeap
  · rw [isRunning]
    exact ok.running timer
  · rw [repeats]
    exact ok.oneShot timer
  · rw [nextFireTime]
    exact ok.last timer
  · rw [interval]
    exact ok.spacing timer

/-! ## Steps -/

/-- A pass of the loop ends the thread, waits, or fires the front of the queue, which is due. -/
theorem eventLoop_cases (taken : eventLoop heap s = some s') :
    s' = { s with thread := .finished } ∨ s' = { s with thread := .waiting } ∨
      ∃ front rest, s.timerQueue = front :: rest ∧ (s.timers front).nextFireTime ≤ s.now ∧
        fireFront heap s = some s' := by
  unfold eventLoop at taken
  split at taken
  case isTrue => exact .inl (Option.some.inj taken).symm
  case isFalse =>
    split at taken
    case h_1 => exact .inr (.inl (Option.some.inj taken).symm)
    case h_2 front rest found =>
      split at taken
      case isTrue => exact .inr (.inl (Option.some.inj taken).symm)
      case isFalse due => exact .inr (.inr ⟨front, rest, found, Int.not_lt.mp due, taken⟩)

theorem SchedulingOk.eventLoop (ok : SchedulingOk s) (taken : eventLoop heap s = some s') :
    SchedulingOk s' := by
  obtain rfl | rfl | ⟨front, rest, found, -, fired⟩ := eventLoop_cases heap taken
  · exact ok.keep rfl rfl rfl rfl
  · exact ok.keep rfl rfl rfl rfl
  · exact ok.fire heap found fired

theorem SchedulingOk.threadStep (ok : SchedulingOk s) (taken : threadStep heap s = some s') :
    SchedulingOk s' := by
  unfold ThreadedTimer.threadStep at taken
  split at taken
  case h_1 => exact ok.eventLoop heap taken
  case h_5 =>
    cases taken
    exact (ok.register heap _ _ _).keep rfl rfl rfl rfl
  case h_7 => cases taken
  case h_8 => cases taken
  all_goals
    cases taken
    exact ok.keep rfl rfl rfl rfl

theorem SchedulingOk.clientStep (ok : SchedulingOk s) {client : Nat}
    (taken : clientStep heap s client = some s') : SchedulingOk s' := by
  unfold ThreadedTimer.clientStep at taken
  dsimp only at taken
  split at taken
  case h_1 => cases taken
  case h_2 =>
    cases taken
    exact ok.keep rfl rfl rfl rfl
  case h_3 =>
    split at taken
    · cases taken
    · cases taken
      exact (ok.register heap _ _ _).keep rfl rfl rfl rfl
  case h_4 =>
    split at taken
    · cases taken
    · cases taken
      exact (ok.unregister heap _).keep rfl rfl rfl rfl
  case h_5 =>
    split at taken
    · cases taken
    · cases taken
      exact ok.keep rfl rfl rfl rfl

theorem SchedulingOk.clientCall (ok : SchedulingOk s) {client : Nat} {phase : Client τ}
    (taken : clientCall s client phase = some s') : SchedulingOk s' := by
  unfold ThreadedTimer.clientCall at taken
  split at taken
  · cases taken
    exact ok.keep rfl rfl rfl rfl
  · cases taken

theorem SchedulingOk.next (ok : SchedulingOk s) {action : Action τ}
    (taken : next heap s action = some s') : SchedulingOk s' := by
  cases action with
  | tick =>
      cases taken
      exact ok.keep rfl rfl rfl rfl
  | setTimeout timer milliseconds =>
      cases taken
      exact ok.configure timer _ rfl rfl rfl rfl
  | setCallback timer fn =>
      cases taken
      exact ok.configure timer _ rfl rfl rfl rfl
  | setRepeat timer repeats =>
      cases taken
      exact ok.configure timer _ rfl rfl rfl rfl
  | start => exact ok.clientCall taken
  | stop => exact ok.clientCall taken
  | clientStep => exact ok.clientStep heap taken
  | threadStep => exact ok.threadStep heap taken
  | callbackStart =>
      simp only [ThreadedTimer.next, callbackStart] at taken
      split at taken
      · cases taken
        exact ok.keep rfl rfl rfl rfl
      · cases taken
  | callbackStop =>
      simp only [ThreadedTimer.next, callbackStop] at taken
      split at taken
      · cases taken
        exact ok.unregister heap _
      · cases taken
  | callbackReturn =>
      simp only [ThreadedTimer.next, callbackReturn] at taken
      split at taken
      · cases taken
        exact ok.keep rfl rfl rfl rfl
      · cases taken
  | destroy =>
      simp only [ThreadedTimer.next] at taken
      split at taken
      · cases taken
      · cases taken
        exact ok.keep rfl rfl rfl rfl

theorem SchedulingOk.initial : SchedulingOk (State.initial : State τ) where
  queue := ⟨List.nodup_nil, .nil⟩
  running timer := by simp [State.initial, Timer.initial]
  oneShot timer _ := by simp [State.initial]
  last timer value found := by simp [State.initial] at found
  spacing timer := .nil

theorem schedulingOk_of_reachable {allowed : State τ → Action τ → Prop}
    (reachable : Reachable (next heap) allowed State.initial s) : SchedulingOk s := by
  refine reachable.invariant SchedulingOk .initial ?_
  intro before action after ok _ taken
  exact ok.next heap taken

/-- The timer that the loop fires is an earliest one, and due. -/
theorem SchedulingOk.fires_earliest (ok : SchedulingOk s) {timer : τ}
    (taken : ThreadedTimer.eventLoop heap s = some s') (fires : s'.thread = .firing timer) :
    timer ∈ s.timerQueue ∧ (s.timers timer).nextFireTime ≤ s.now ∧
      ∀ other ∈ s.timerQueue, (s.timers timer).nextFireTime ≤ (s.timers other).nextFireTime := by
  obtain rfl | rfl | ⟨front, rest, found, due, fired⟩ := eventLoop_cases heap taken
  · cases fires
  · cases fires
  · obtain ⟨queue, equation, -⟩ := fireFront_eq heap found ok.queue
    rw [equation, Option.some.injEq] at fired
    subst fired
    cases fires
    have isHeap := ok.queue.isHeap
    rw [found] at isHeap ⊢
    refine ⟨List.mem_cons_self, due, ?_⟩
    intro other member
    exact fireTimeComparator_eq_false_iff.mp
      (isHeap.front (fireTimeComparator_order s.timers) member)

/-- The queue holds exactly the running timers, each once, as a heap on their fire times. So the
loop fires a timer that is due and that no other queued timer precedes; a one-shot timer fires at
most once for each start; and the fire times of a repeating timer are its interval apart. -/
theorem schedule_is_kept
    (reachable : Reachable (next heap) (fun _ _ => True) State.initial s) :
    s.timerQueue.Nodup ∧
      (∀ timer, (s.timers timer).isRunning = true ↔ timer ∈ s.timerQueue) ∧
      IsHeap (fireTimeComparator s.timers) s.timerQueue ∧
      (∀ s' timer, s.thread = .looping → next heap s .threadStep = some s' →
        s'.thread = .firing timer →
          timer ∈ s.timerQueue ∧ (s.timers timer).nextFireTime ≤ s.now ∧
            ∀ other ∈ s.timerQueue,
              (s.timers timer).nextFireTime ≤ (s.timers other).nextFireTime) ∧
      (∀ timer, (s.timers timer).scheduledRepeat = false → s.fires timer ≤ 1) ∧
      ∀ timer, ((s.fireTimes timer).IsChain fun first second =>
          second = first + milliseconds (s.timers timer).scheduledIntervalMs) ∧
        ∀ latest, (s.fireTimes timer).getLast? = some latest →
          (s.timers timer).nextFireTime = latest := by
  have ok := schedulingOk_of_reachable heap reachable
  refine ⟨ok.queue.nodup, ok.running, ok.queue.isHeap, ?_, ?_, ?_⟩
  · intro s' timer looping taken fires
    simp only [next, threadStep, looping] at taken
    exact ok.fires_earliest heap taken fires
  · intro timer single
    have bound := ok.oneShot timer single
    omega
  · intro timer
    exact ⟨ok.spacing timer, ok.last timer⟩

/-- A repeating timer of 10 ms fires before a one-shot timer of 20 ms. -/
theorem a_repeating_timer_fires_first :
    ∃ s : State Nat,
      Reachable (next .sorted) (fun _ _ => True) State.initial s ∧
        s.firingTimer = some 1 ∧ s.timerQueue = [0, 1] ∧
        s.fireTimes 1 = [10000000, 20000000] ∧
        IsHeap (fireTimeComparator s.timers) s.timerQueue := by
  have executed : (runActions (next .sorted) (fun _ _ => True) (State.initial : State Nat)
      [.setTimeout 0 20, .setTimeout 1 10, .setRepeat 1 true, .threadStep, .start 0 0,
        .clientStep 0, .clientStep 0, .start 0 1, .clientStep 0, .clientStep 0, .threadStep,
        .threadStep, .tick 10000000, .threadStep, .threadStep]).map
        (fun s => (s.firingTimer, s.timerQueue, s.fireTimes 1)) =
      some (some 1, [0, 1], [10000000, 20000000]) := by
    decide +kernel
  obtain ⟨s, executed, result⟩ := Option.map_eq_some_iff.mp executed
  simp only [Prod.mk.injEq] at result
  obtain ⟨firing, queue, times⟩ := result
  have reachable := Reachable.of_runActions _ .start executed
  exact ⟨s, reachable, firing, queue, times, (schedule_is_kept .sorted reachable).2.2.1⟩

end FreeDV.Util.ThreadedTimer
