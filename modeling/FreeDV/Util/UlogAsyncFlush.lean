import FreeDV.Util.UlogAsyncAccounting

/-!
# What a flush waits for

`ulog_async_flush` compares the two positions of the ring, loaded in either
order, and then looks whether the consumer is parked. Positions only grow, and
a parked consumer has emitted all it popped.
-/

set_option autoImplicit false

namespace FreeDV.Util.UlogAsync

open FreeDV.Lib FreeDV.Util.UlogRing

variable {η : Type} {s s' : State η}

/-- `ulog_async_stop` is not called. -/
def keepsRunning : Action η → Bool
  | .stop => false
  | _ => true

/-- The controlling thread is in `ulog_async_stop`. -/
def stopping : Controller → Bool
  | .stopRunning => true
  | .join => true
  | .draining => true
  | .clearReady => true
  | _ => false

/-- The record a running `drain` has popped and not yet emitted. -/
def drainRecords : Option (Drain η) → List (Popped (Header η))
  | some (.emitting rec) => [rec]
  | _ => []

/-- All records accepted before the flush have positions below `bound`. -/
def AllBelow (s : State η) (bound : Nat) : Prop :=
  ∀ entry ∈ s.acceptedBefore, ∃ p < bound, s.ring.claims[p]? = some entry

/-- All records accepted before the flush are popped and emitted. -/
def AllEmitted (s : State η) : Prop :=
  ∀ entry ∈ s.acceptedBefore, ∃ dst ∈ s.emitted, dst ∈ s.ring.popped ∧ dst.Agrees entry.2

/-- What the flusher knows from the loads it has made. -/
def FlushOk (s : State η) : Prop :=
  match s.flusher with
  | .loadEnqueuePos _ dequeuePos => dequeuePos ≤ s.ring.dequeuePos
  | .loadDequeuePos _ enqueuePos => AllBelow s enqueuePos
  | .loadIdle _ => AllBelow s s.ring.dequeuePos
  | .flushed => AllEmitted s
  | _ => True

structure SessionOk (s : State η) : Prop where
  starting : stopping s.controller = false
  callers : ∀ thread rec, s.callers thread = .serialized rec → s.ready = true
  unready : s.ready = false → s.emitted = [] ∧ s.ring.popped = [] ∧ s.ring.accepted = [] ∧
    s.ring.claims = [] ∧ s.ring.dequeuePos = 0
  emission : s.emitted ++ drainRecords s.drain = s.ring.popped
  snapshot : ∀ entry ∈ s.acceptedBefore, entry ∈ s.ring.accepted
  flush : FlushOk s

/-- Without `ulog_async_stop` nothing is removed from the histories. -/
structure Grows (s s' : State η) : Prop where
  claims : s.ring.claims <+: s'.ring.claims
  dequeuePos : s.ring.dequeuePos ≤ s'.ring.dequeuePos
  emitted : s.emitted ⊆ s'.emitted
  popped : s.ring.popped ⊆ s'.ring.popped
  accepted : s.ring.accepted ⊆ s'.ring.accepted
  flusher : s'.flusher = s.flusher
  acceptedBefore : s'.acceptedBefore = s.acceptedBefore

theorem AllBelow.mono {bound bound' : Nat} (below : AllBelow s bound) (le : bound ≤ bound')
    (grows : Grows s s') : AllBelow s' bound' := by
  intro entry member
  rw [grows.acceptedBefore] at member
  obtain ⟨p, lt, claimed⟩ := below entry member
  obtain ⟨more, claims⟩ := grows.claims
  refine ⟨p, by omega, ?_⟩
  rw [← claims, List.getElem?_append_left (List.getElem?_eq_some_iff.mp claimed).1, claimed]

theorem FlushOk.mono (ok : FlushOk s) (grows : Grows s s') : FlushOk s' := by
  unfold FlushOk at ok ⊢
  rw [grows.flusher]
  cases phase : s.flusher with
  | loadEnqueuePos tries dequeuePos =>
      rw [phase] at ok
      exact ok.trans grows.dequeuePos
  | loadDequeuePos tries enqueuePos =>
      rw [phase] at ok
      exact AllBelow.mono ok le_rfl grows
  | loadIdle tries =>
      rw [phase] at ok
      exact AllBelow.mono ok grows.dequeuePos grows
  | flushed =>
      rw [phase] at ok
      intro entry member
      rw [grows.acceptedBefore] at member
      obtain ⟨dst, emitted, popped, agrees⟩ := ok entry member
      exact ⟨dst, grows.emitted emitted, grows.popped popped, agrees⟩
  | idle => trivial
  | loadRunning => trivial
  | loadFirst tries => trivial
  | notRunning => trivial
  | gaveUp => trivial

/-! ## Steps of the producers and the consumer -/

theorem pushMove_grows {r r' : Ring Nat (Header η)} {thread : Nat} (move : PushMove r thread r') :
    r.claims <+: r'.claims ∧ r'.dequeuePos = r.dequeuePos ∧ r'.popped = r.popped ∧
      r.accepted ⊆ r'.accepted := by
  cases move with
  | claim phase => exact ⟨List.prefix_append _ _, rfl, rfl, List.Subset.refl _⟩
  | publish phase => exact ⟨List.prefix_rfl, rfl, rfl, List.subset_append_left _ _⟩
  | _ => exact ⟨List.prefix_rfl, rfl, rfl, List.Subset.refl _⟩

theorem CallerMove.grows {thread : Nat} (move : CallerMove s thread s') :
    Grows s s' ∧ s'.emitted = s.emitted ∧ s'.ring.popped = s.ring.popped := by
  have ringGrows : s.ring.claims <+: s'.ring.claims ∧ s'.ring.dequeuePos = s.ring.dequeuePos ∧
      s'.ring.popped = s.ring.popped ∧ s.ring.accepted ⊆ s'.ring.accepted := by
    cases move with
    | push phase push busy => exact pushMove_grows push
    | accepted phase push returned => exact pushMove_grows push
    | full phase push returned => exact pushMove_grows push
    | _ => exact ⟨List.prefix_rfl, rfl, rfl, List.Subset.refl _⟩
  obtain ⟨claims, dequeuePos, popped, accepted⟩ := ringGrows
  have rest : s'.emitted = s.emitted ∧ s'.flusher = s.flusher ∧
      s'.acceptedBefore = s.acceptedBefore := by
    cases move <;> exact ⟨rfl, rfl, rfl⟩
  obtain ⟨emitted, flusher, acceptedBefore⟩ := rest
  exact ⟨⟨claims, dequeuePos.ge, emitted ▸ List.Subset.refl _, popped ▸ List.Subset.refl _, accepted,
    flusher, acceptedBefore⟩, emitted, popped⟩

theorem popMove_grows {r r' : Ring Nat (Header η)} (move : PopMove r r') :
    r.dequeuePos ≤ r'.dequeuePos ∧ r.popped ⊆ r'.popped := by
  cases move with
  | claim phase => exact ⟨Nat.le_succ _, List.Subset.refl _⟩
  | release phase => exact ⟨le_rfl, List.subset_append_left _ _⟩
  | _ => exact ⟨le_rfl, List.Subset.refl _⟩

theorem DrainMove.grows (move : DrainMove s s') : Grows s s' := by
  have popGrows : ∀ {ring : Ring Nat (Header η)} {drain : Option (Drain η)}, PopMove s.ring ring →
      Grows s { s with ring := ring, drain := drain } := by
    intro ring drain pop
    obtain ⟨_, claims, accepted, _⟩ := popMove_others pop
    obtain ⟨dequeuePos, popped⟩ := popMove_grows pop
    exact ⟨claims ▸ List.prefix_rfl, dequeuePos, List.Subset.refl _, popped,
      accepted ▸ List.Subset.refl _, rfl, rfl⟩
  cases move with
  | pop phase pop busy => exact popGrows pop
  | popped phase pop returned => exact popGrows pop
  | empty phase pop returned => exact popGrows pop
  | emitted phase =>
      exact ⟨List.prefix_rfl, le_rfl, List.subset_append_left _ _, List.Subset.refl _,
        List.Subset.refl _, rfl, rfl⟩
  | reported phase =>
      exact ⟨List.prefix_rfl, le_rfl, List.Subset.refl _, List.Subset.refl _, List.Subset.refl _,
        rfl, rfl⟩

theorem DrainMove.emission (move : DrainMove s s')
    (before : s.emitted ++ drainRecords s.drain = s.ring.popped) :
    s'.emitted ++ drainRecords s'.drain = s'.ring.popped := by
  cases move with
  | pop phase pop busy =>
      rw [phase] at before
      cases pop with
      | release poll => exact absurd rfl (busy _)
      | _ => exact before
  | popped phase pop returned =>
      rw [phase] at before
      simp only [drainRecords, List.append_nil] at before
      cases pop with
      | release poll =>
          cases returned
          simp [drainRecords, before]
      | _ => cases returned
  | empty phase pop returned =>
      rw [phase] at before
      cases pop with
      | empty poll negative => exact before
      | _ => cases returned
  | emitted phase =>
      rw [phase] at before
      simpa [callPop, drainRecords] using before
  | reported phase =>
      rw [phase] at before
      exact before

theorem SessionOk.of_grows (ok : SessionOk s) (grows : Grows s s')
    (starting : stopping s'.controller = false)
    (callers : ∀ thread rec, s'.callers thread = .serialized rec → s'.ready = true)
    (unready : s'.ready = false → s'.emitted = [] ∧ s'.ring.popped = [] ∧ s'.ring.accepted = [] ∧
      s'.ring.claims = [] ∧ s'.ring.dequeuePos = 0)
    (emission : s'.emitted ++ drainRecords s'.drain = s'.ring.popped) : SessionOk s' where
  starting := starting
  callers := callers
  unready := unready
  emission := emission
  snapshot entry member := by
    rw [grows.acceptedBefore] at member
    exact grows.accepted (ok.snapshot entry member)
  flush := ok.flush.mono grows

theorem Invariant.not_pushing (inv : Invariant s) (ready : s.ready = false)
    (starting : stopping s.controller = false) {thread call : Nat} :
    s.callers thread ≠ .pushing call := by
  intro phase
  have shut : closed s = true := by
    unfold closed
    cases controller : s.controller <;> simp_all [stopping]
  have valid := inv.callers.callers thread
  rw [phase] at valid
  obtain ⟨_, rec, work, _⟩ := valid
  rw [(inv.ring.quiet shut).1 thread] at work
  cases work

theorem SessionOk.callerMove (ok : SessionOk s) (inv : Invariant s) {thread : Nat}
    (move : CallerMove s thread s') : SessionOk s' := by
  obtain ⟨grows, emitted, popped⟩ := move.grows
  obtain ⟨ready, _, _, _, controller, drain, _⟩ := move.frame
  refine ok.of_grows grows (controller ▸ ok.starting) ?_ ?_ ?_
  · intro other rec phase
    rw [ready]
    by_cases self : other = thread
    · subst self
      cases move with
      | passed _ isReady => exact isReady
      | push before _ _ =>
          rw [before] at phase
          cases phase
      | _ => simp at phase
    · have before : s.callers other = .serialized rec := by
        cases move with
        | push _ _ _ => exact phase
        | _ => exact (setCaller_other self).symm.trans phase
      exact ok.callers other rec before
  · intro unready
    rw [ready] at unready
    have ringSame : s'.ring = s.ring := by
      cases move with
      | passed _ isReady =>
          rw [unready] at isReady
          cases isReady
      | enter phase =>
          have isReady := ok.callers _ _ phase
          rw [unready] at isReady
          cases isReady
      | push phase _ _ => exact absurd phase (inv.not_pushing unready ok.starting)
      | accepted phase _ _ => exact absurd phase (inv.not_pushing unready ok.starting)
      | full phase _ _ => exact absurd phase (inv.not_pushing unready ok.starting)
      | unready _ _ => rfl
      | counted _ => rfl
      | signalled _ => rfl
    rw [ringSame, emitted]
    exact ok.unready unready
  · rw [emitted, popped, drain]
    exact ok.emission

theorem SessionOk.consumerMove (ok : SessionOk s) (control : ControlOk s)
    (move : ConsumerMove s s') : SessionOk s' := by
  have present : s.ready = true := by
    cases move with
    | loadRunning phase => exact (control.stage.consumer_phases (by simp [phase])).2
    | drain phase _ => exact (control.stage.consumer_phases (by simp [phase])).2
    | drained phase _ => exact (control.stage.consumer_phases (by simp [phase])).2
    | markIdle phase => exact (control.stage.consumer_phases (by simp [phase])).2
    | wake phase => exact (control.stage.consumer_phases (by simp [phase])).2
  have frame : s'.ready = s.ready ∧ s'.controller = s.controller := by
    cases move with
    | drain phase drain => cases drain <;> exact ⟨rfl, rfl⟩
    | _ => exact ⟨rfl, rfl⟩
  have grows : Grows s s' := by
    cases move with
    | drain phase drain => exact drain.grows
    | _ =>
        exact ⟨List.prefix_rfl, le_rfl, List.Subset.refl _, List.Subset.refl _,
          List.Subset.refl _, rfl, rfl⟩
  refine ok.of_grows grows (frame.2 ▸ ok.starting) ?_ ?_ ?_
  · intro thread rec phase
    rw [frame.1]
    exact present
  · intro unready
    rw [frame.1, present] at unready
    cases unready
  · cases move with
    | loadRunning phase =>
        have done : s.drain = none := by
          have owner := control.drain
          have starting := ok.starting
          cases controller : s.controller <;> simp_all [stopping]
        have emission := ok.emission
        rw [done] at emission
        exact emission
    | drain phase drain => exact drain.emission ok.emission
    | drained phase done => exact ok.emission
    | markIdle phase => exact ok.emission
    | wake phase => exact ok.emission

theorem SessionOk.controllerMove (ok : SessionOk s) (control : ControlOk s)
    (move : ControllerMove s s') : SessionOk s' := by
  have stage := control.stage
  unfold Stage at stage
  have starting := ok.starting
  cases move with
  | startRefused phase running => exact { ok with starting := rfl }
  | startRunning phase running => exact { ok with starting := rfl }
  | loadDropped phase => exact { ok with starting := rfl }
  | @initSeq i phase =>
      refine { ok with starting := ?_ }
      by_cases more : i + 1 < kQueueLen
      · simp only [if_pos more]
        rfl
      · simp only [if_neg more]
        rfl
  | initEnqueuePos phase => exact { ok with starting := rfl }
  | initDequeuePos phase =>
      rw [phase] at stage
      obtain ⟨emitted, popped, accepted, claims, dequeuePos⟩ := ok.unready stage.2.1
      have grows : Grows s { s with
          ring := { s.ring with
            dequeuePos := 0, claims := [], published := [], accepted := [], popped := [] }
          controller := .initIdle } :=
        ⟨by simp [claims], by simp [dequeuePos], List.Subset.refl _, by simp [popped],
          by simp [accepted], rfl, rfl⟩
      refine ok.of_grows grows rfl ok.callers ?_ ?_
      · exact fun _ => ⟨emitted, rfl, rfl, rfl, rfl⟩
      · have emission := ok.emission
        rw [popped] at emission
        exact emission
  | initIdle phase => exact { ok with starting := rfl }
  | initReady phase =>
      exact { ok with starting := rfl, callers := fun _ _ _ => rfl, unready := by simp }
  | spawn phase => exact { ok with starting := rfl }
  | stopRunning phase running => simp [phase, stopping] at starting
  | stopRefused phase running => simp [phase, stopping] at starting
  | join phase finished => simp [phase, stopping] at starting
  | drain phase drain => simp [phase, stopping] at starting
  | drained phase done => simp [phase, stopping] at starting
  | clearReady phase => simp [phase, stopping] at starting

/-! ## Steps of the flusher -/

theorem SessionOk.below_enqueuePos (ok : SessionOk s) (inv : Invariant s) :
    AllBelow s s.ring.enqueuePos := by
  intro entry member
  have accepted := ok.snapshot entry member
  have ready : s.ready = true := by
    by_contra unready
    rw [(ok.unready (by simpa using unready)).2.2.1] at accepted
    cases accepted
  obtain ⟨ringOk, calls⟩ := inv.ring.live (.inl ready)
  obtain ⟨i, inside, same⟩ := List.getElem_of_mem accepted
  have length := calls.accepted.length_eq
  obtain ⟨p, _, claimed⟩ := (List.forall₂_iff_get.mp calls.accepted).2 i (by omega) inside
  have claimed' : s.ring.claims[p]? = some entry := by
    rw [claimed]
    exact congrArg some same
  refine ⟨p, ?_, claimed'⟩
  rw [ringOk.enqueuePos]
  exact (List.getElem?_eq_some_iff.mp claimed').1

/-- A parked consumer has emitted everything below `g_dequeuePos`. -/
theorem SessionOk.emitted_of_idle (ok : SessionOk s) (inv : Invariant s)
    (idle : s.consumerIdle = true) (below : AllBelow s s.ring.dequeuePos) : AllEmitted s := by
  have waiting := inv.control.consumerIdle idle
  have ready := (inv.control.stage.consumer_phases (by simp [waiting])).2
  have starting := ok.starting
  have done : s.drain = none := by
    rcases inv.control.drain with done | ⟨final, draining⟩ | draining
    · exact done
    · rw [waiting] at draining
      cases draining
    · simp [draining, stopping] at starting
  have ringOk := (inv.ring.live (.inl ready)).1
  have notHeld : s.ring.popper.held = 0 := by
    rcases inv.control.popper with popping | quiet | ⟨dst, returned⟩
    · rw [done] at popping
      cases popping
    · rw [quiet]
      rfl
    · rw [returned]
      rfl
  have dequeuePos : s.ring.dequeuePos = s.ring.popped.length := by
    rw [ringOk.dequeuePos, notHeld]
    rfl
  have emission := ok.emission
  rw [done] at emission
  simp only [drainRecords, List.append_nil] at emission
  intro entry member
  obtain ⟨p, lt, claimed⟩ := below entry member
  rw [dequeuePos] at lt
  obtain ⟨entry', claimed', agrees⟩ := ringOk.popped p _ (List.getElem?_eq_getElem lt)
  rw [claimed] at claimed'
  cases claimed'
  refine ⟨s.ring.popped[p], ?_, List.getElem_mem lt, agrees⟩
  rw [emission]
  exact List.getElem_mem lt

theorem SessionOk.setFlusher (ok : SessionOk s) {flusher : Flusher}
    (knows : FlushOk { s with flusher := flusher }) : SessionOk { s with flusher := flusher } :=
  { ok with flush := knows }

theorem flushOk_again (tries : Nat) :
    FlushOk { s with flusher := if tries + 1 < 2000 then .loadFirst (tries + 1) else .gaveUp } := by
  by_cases more : tries + 1 < 2000
  · simp only [FlushOk, if_pos more]
  · simp only [FlushOk, if_neg more]

theorem SessionOk.flusherStep (ok : SessionOk s) (inv : Invariant s) {enqueueFirst : Bool}
    (step : flusherStep s enqueueFirst = some s') : SessionOk s' := by
  have knows := ok.flush
  unfold FlushOk at knows
  unfold UlogAsync.flusherStep at step
  cases phase : s.flusher with
  | loadRunning =>
      rw [phase] at step
      cases step
      refine ok.setFlusher ?_
      cases s.running <;> simp [FlushOk]
  | loadFirst tries =>
      rw [phase] at step
      cases step
      refine ok.setFlusher ?_
      cases enqueueFirst with
      | true => exact ok.below_enqueuePos inv
      | false => exact le_refl s.ring.dequeuePos
  | loadEnqueuePos tries dequeuePos =>
      rw [phase] at step knows
      cases step
      refine ok.setFlusher ?_
      by_cases same : s.ring.enqueuePos = dequeuePos
      · simp only [FlushOk, if_pos same]
        intro entry member
        obtain ⟨p, lt, claimed⟩ := ok.below_enqueuePos inv entry member
        refine ⟨p, ?_, claimed⟩
        dsimp only at knows ⊢
        omega
      · simp only [if_neg same]
        exact flushOk_again tries
  | loadDequeuePos tries enqueuePos =>
      rw [phase] at step knows
      cases step
      refine ok.setFlusher ?_
      by_cases same : enqueuePos = s.ring.dequeuePos
      · simp only [FlushOk, if_pos same]
        intro entry member
        obtain ⟨p, lt, claimed⟩ := knows entry member
        exact ⟨p, same ▸ lt, claimed⟩
      · simp only [if_neg same]
        exact flushOk_again tries
  | loadIdle tries =>
      rw [phase] at step knows
      cases step
      refine ok.setFlusher ?_
      cases idle : s.consumerIdle with
      | true => exact ok.emitted_of_idle inv idle knows
      | false => exact flushOk_again tries
  | idle => simp [phase] at step
  | notRunning => simp [phase] at step
  | flushed => simp [phase] at step
  | gaveUp => simp [phase] at step

/-! ## Runs -/

theorem SessionOk.clean (ok : SessionOk s) {action : Action η}
    (keeps : keepsRunning action = true) : cleanStop s action = true := by
  have starting := ok.starting
  cases action with
  | callerStep thread spurious =>
      simp only [cleanStop]
      split
      next rec phase =>
        have ready := ok.callers thread rec phase
        unfold closed
        cases controller : s.controller <;> simp_all [stopping]
      next => rfl
  | controllerStep spurious =>
      have elsewhere : s.controller ≠ .draining := by
        intro draining
        simp [draining, stopping] at starting
      simp [cleanStop, elsewhere]
  | stop => cases keeps
  | enqueue thread rec => rfl
  | consumerStep spurious => rfl
  | start => rfl
  | flush => rfl
  | flusherStep enqueueFirst => rfl

theorem SessionOk.next (ok : SessionOk s) (inv : Invariant s) {action : Action η}
    (keeps : keepsRunning action = true) (step : next s action = some s') : SessionOk s' := by
  cases action with
  | enqueue thread rec =>
      simp only [UlogAsync.next] at step
      split at step
      next phase =>
        cases step
        refine { ok with callers := ?_ }
        intro other rec' phase'
        by_cases self : other = thread
        · subst self
          simp at phase'
        · exact ok.callers other rec' ((setCaller_other self).symm.trans phase')
      next => cases step
  | callerStep thread spurious => exact ok.callerMove inv (callerStep_move step)
  | consumerStep spurious => exact ok.consumerMove inv.control (consumerStep_move step)
  | start =>
      simp only [UlogAsync.next] at step
      split at step
      · cases step
        exact { ok with starting := rfl }
      · cases step
  | stop => cases keeps
  | controllerStep spurious => exact ok.controllerMove inv.control (controllerStep_move step)
  | flush =>
      simp only [UlogAsync.next] at step
      split at step <;> cases step <;>
        exact { ok with snapshot := fun _ member => member, flush := trivial }
  | flusherStep enqueueFirst => exact ok.flusherStep inv step

theorem SessionOk.initial (memory : Nat → Cell Nat (Header η)) :
    SessionOk (State.initial memory) where
  starting := rfl
  callers := by simp [State.initial]
  unready _ := ⟨rfl, rfl, rfl, rfl, rfl⟩
  emission := rfl
  snapshot := by simp [State.initial]
  flush := trivial

end FreeDV.Util.UlogAsync
