import FreeDV.Util.TcpConnect
import Mathlib.Data.List.Basic

/-!
# Which addresses are attempted

Every address is attempted at most once. When the loop ends without a
connection, all addresses were attempted, unless the answer of one lookup
slipped through between two looks at its flag.
-/

set_option autoImplicit false

namespace FreeDV.Util.TcpConnect

open FreeDV.Lib

variable {α : Type} {answers : Family → List α} {s s' : State α}

/-! ## Attempts follow the lists -/

/-- The worker is busy with the head of its current list. -/
def Point.busy : Point → Bool
  | .attempting => true
  | .checking => true
  | .nextAddress => true
  | _ => false

/-- The addresses of a family that have been attempted, in order. -/
def attemptsOf (s : State α) (family : Family) : List α :=
  (s.attempts.filter fun entry => entry.1 = family).map Prod.snd

/-- What is left of a collected list. -/
def remaining (s : State α) (family : Family) : List α :=
  if s.point.busy = true ∧ s.whichIndex = family then (s.results family).tail else s.results family

/-- What is known of the futures before the address loop. -/
def Early (s : State α) : Prop :=
  match s.point with
  | .waitCancel | .waitIpv4 | .waitIpv6 | .firstIpv6 =>
      s.collected .ipv6 = false ∧ s.collected .ipv4 = false
  | .firstIpv4 => s.collected .ipv4 = false ∧ (s.collected .ipv6 = true → s.complete .ipv6 = true)
  | .secondIpv6 => s.collected .ipv6 = true → s.complete .ipv6 = true
  | .thirdIpv6 => s.collected .ipv6 = false
  | .needIpv4 => s.collected .ipv6 = true → s.complete .ipv6 = true
  | .getIpv4 => s.collected .ipv4 = false
  | _ => True

structure ListsOk (answers : Family → List α) (s : State α) : Prop where
  attempted : ∀ family, attemptsOf s family <+: answers family
  /-- A loop that was left with a connection has addresses left over. -/
  progress : s.point ≠ .left ∨ s.socket = none → ∀ family,
    attemptsOf s family ++ remaining s family = if s.collected family then answers family else []
  current : s.point.busy = true → s.results s.whichIndex ≠ []
  early : Early s

theorem ListsOk.uncollected (ok : ListsOk answers s) (inside : s.point ≠ .left) {family : Family}
    (valid : s.collected family = false) : attemptsOf s family = [] ∧ remaining s family = [] := by
  have progress := ok.progress (.inl inside) family
  rw [valid] at progress
  exact List.append_eq_nil_iff.mp progress

theorem ListsOk.keep (ok : ListsOk answers s) (inside : s.point ≠ .left)
    (idle : s.point.busy = false)
    (idle' : s'.point.busy = false) (attempts : s'.attempts = s.attempts)
    (results : s'.results = s.results) (collected : s'.collected = s.collected)
    (early : Early s') : ListsOk answers s' where
  attempted family := by
    simp only [attemptsOf, attempts]
    exact ok.attempted family
  progress _ family := by
    have progress := ok.progress (.inl inside) family
    simp only [remaining, idle, Bool.false_eq_true, false_and, if_false] at progress
    simp only [attemptsOf, remaining, idle', attempts, results, collected, Bool.false_eq_true,
      false_and, if_false]
    exact progress
  current busy := by
    rw [idle'] at busy
    cases busy
  early := early

theorem ListsOk.goTo (ok : ListsOk answers s) {here there : Point} (point : s.point = here)
    (inside : here ≠ .left) (idle : here.busy = false) (idle' : there.busy = false)
    (early : Early { s with point := there }) : ListsOk answers { s with point := there } := by
  subst here
  exact ok.keep inside idle idle' rfl rfl rfl early

theorem ListsOk.collect (ok : ListsOk answers s) {family : Family} (inside : s.point ≠ .left)
    (idle : s.point.busy = false) (valid : s.collected family = false) {whichIndex : Family} {point : Point}
    (idle' : point.busy = false)
    (early : Early { collect answers s family with whichIndex := whichIndex, point := point }) :
    ListsOk answers { collect answers s family with whichIndex := whichIndex, point := point } where
  attempted := ok.attempted
  progress _ other := by
    by_cases same : other = family
    · subst same
      have nothing := (ok.uncollected inside valid).1
      simp only [attemptsOf] at nothing
      simp [attemptsOf, remaining, idle', TcpConnect.collect, nothing]
    · have progress := ok.progress (.inl inside) other
      simp only [remaining, idle, Bool.false_eq_true, false_and, if_false] at progress
      simp only [attemptsOf, remaining, idle', TcpConnect.collect, Function.update_of_ne same,
        Bool.false_eq_true, false_and, if_false]
      exact progress
  current busy := by
    simp only [idle'] at busy
    cases busy
  early := early

theorem attemptsOf_append (s : State α) (whichIndex family : Family) (current : α) (point : Point) :
    attemptsOf { s with
        whichIndex := whichIndex, attempts := s.attempts ++ [(whichIndex, current)],
        point := point } family =
      attemptsOf s family ++ if whichIndex = family then [current] else [] := by
  by_cases same : whichIndex = family
  · simp [attemptsOf, same]
  · simp [attemptsOf, same]

theorem prefix_of_progress {attempted rest : List α} {collected : Bool} {answer : List α}
    (progress : attempted ++ rest = if collected then answer else []) : attempted <+: answer := by
  cases collected with
  | true => exact ⟨rest, progress⟩
  | false =>
      rw [(List.append_eq_nil_iff.mp progress).1]
      exact List.nil_prefix

theorem ListsOk.beginAttempt (ok : ListsOk answers s) (inside : s.point ≠ .left)
    (idle : s.point.busy = false) : ListsOk answers (beginAttempt s) := by
  unfold TcpConnect.beginAttempt
  dsimp only
  split
  · exact ok.keep inside idle rfl rfl rfl rfl trivial
  · rename_i current rest taken
    generalize chosen : (if s.results s.whichIndex = [] then s.whichIndex.other
      else s.whichIndex) = whichIndex at taken ⊢
    have after : ∀ family, attemptsOf { s with
          whichIndex := whichIndex, attempts := s.attempts ++ [(whichIndex, current)],
          point := .attempting } family ++ remaining { s with
          whichIndex := whichIndex, attempts := s.attempts ++ [(whichIndex, current)],
          point := .attempting } family = if s.collected family then answers family else [] := by
      intro family
      have progress := ok.progress (.inl inside) family
      simp only [remaining, idle, Bool.false_eq_true, false_and, if_false] at progress
      rw [attemptsOf_append]
      by_cases same : whichIndex = family
      · subst same
        simp only [remaining, Point.busy, if_true, and_self, taken, List.tail_cons]
        rw [taken] at progress
        rw [← progress]
        simp
      · simp only [remaining, Point.busy, same, and_false, if_false, List.append_nil]
        exact progress
    refine {
      attempted := fun family => prefix_of_progress (after family)
      progress := fun _ => after
      current := ?_
      early := trivial }
    intro _
    simp only [taken]
    simp

theorem Point.ne_left_of_busy {point : Point} (busy : point.busy = true) : point ≠ .left := by
  rintro rfl
  cases busy

theorem ListsOk.skip (ok : ListsOk answers s) (busy : s.point.busy = true) :
    ListsOk answers { s with
      results := Function.update s.results s.whichIndex (s.results s.whichIndex).tail
      whichIndex := s.whichIndex.other
      point := .loopTop } where
  attempted := ok.attempted
  progress _ family := by
    have progress := ok.progress (.inl (Point.ne_left_of_busy busy)) family
    simp only [attemptsOf] at progress
    by_cases same : family = s.whichIndex
    · subst same
      simp only [remaining, busy, and_self, if_true] at progress
      simp only [attemptsOf, remaining, Point.busy, Function.update_self, Bool.false_eq_true,
        false_and, if_false]
      exact progress
    · have apart : ¬ s.whichIndex = family := fun equal => same equal.symm
      simp only [remaining, apart, and_false, if_false] at progress
      simp only [attemptsOf, remaining, Point.busy, Function.update_of_ne same, Bool.false_eq_true,
        false_and, if_false]
      exact progress
  current busy' := by cases busy'
  early := trivial

theorem ListsOk.findAddress (ok : ListsOk answers s) (inside : s.point ≠ .left)
    (idle : s.point.busy = false) : ListsOk answers (findAddress s) := by
  unfold TcpConnect.findAddress
  split
  · split
    · exact ok.keep inside idle rfl rfl rfl rfl trivial
    · exact ok.keep inside idle rfl rfl rfl rfl trivial
  · exact ok.keep inside idle rfl rfl rfl rfl trivial

theorem ListsOk.advance (ok : ListsOk answers s) (busy : s.point.busy = true) :
    ListsOk answers (advance answers s) := by
  have skipped := ok.skip busy
  unfold TcpConnect.advance
  dsimp only
  split
  · rename_i poll
    refine ListsOk.findAddress ?_ (by simp [TcpConnect.collect]) rfl
    exact skipped.collect (by simp) rfl poll.1 rfl trivial
  · exact skipped.findAddress (by simp) rfl

theorem ListsOk.workerStep (ok : ListsOk answers s) (step : workerStep answers s = some s') :
    ListsOk answers s' := by
  have early := ok.early
  unfold Early at early
  unfold TcpConnect.workerStep at step
  cases point : s.point with
  | waitCancel =>
      rw [point] at step early
      cases step
      split <;> exact ok.goTo point (by decide) rfl rfl early
  | waitIpv4 =>
      rw [point] at step early
      cases step
      split <;> exact ok.goTo point (by decide) rfl rfl early
  | waitIpv6 =>
      rw [point] at step early
      cases step
      split <;> exact ok.goTo point (by decide) rfl rfl early
  | firstIpv6 =>
      rw [point] at step early
      cases step
      have idle : s.point.busy = false := by rw [point]; rfl
      cases complete : s.complete .ipv6 with
      | true =>
          simp only [if_true]
          refine ok.collect (by simp [point]) idle early.1 rfl ⟨?_, ?_⟩
          · simpa [TcpConnect.collect] using early.2
          · simp [TcpConnect.collect, complete]
      | false =>
          simp only [Bool.false_eq_true, if_false]
          refine ok.goTo point (by decide) rfl rfl ⟨early.2, ?_⟩
          simp [early.1]
  | firstIpv4 =>
      rw [point] at step early
      cases step
      have idle : s.point.busy = false := by rw [point]; rfl
      cases complete : s.complete .ipv4 with
      | true =>
          simp only [if_true]
          refine ok.collect (by simp [point]) idle early.1 rfl ?_
          simpa [Early, TcpConnect.collect] using early.2
      | false =>
          simp only [Bool.false_eq_true, if_false]
          exact ok.goTo point (by decide) rfl rfl early.2
  | secondIpv6 =>
      rw [point] at step early
      cases step
      cases complete : s.complete .ipv6 with
      | true => exact ok.goTo point (by decide) rfl rfl early
      | false =>
          refine ok.goTo point (by decide) rfl rfl ?_
          simpa [Early, complete] using early
  | thirdIpv6 =>
      rw [point] at step early
      cases step
      have idle : s.point.busy = false := by rw [point]; rfl
      cases complete : s.complete .ipv6 with
      | true =>
          simp only [if_true]
          refine ok.collect (by simp [point]) idle early rfl ?_
          simp [Early, TcpConnect.collect, complete]
      | false =>
          simp only [Bool.false_eq_true, if_false]
          refine ok.goTo point (by decide) rfl rfl ?_
          simp only [Early]
          simp [show s.collected .ipv6 = false from early]
  | needIpv4 =>
      rw [point] at step
      dsimp only at step
      split at step
      · rename_i needed
        cases step
        exact ok.goTo point (by decide) rfl rfl needed.1
      · cases step
        exact ok.keep (by simp [point]) (by rw [point]; rfl) rfl rfl rfl rfl trivial
  | getIpv4 =>
      rw [point] at step early
      dsimp only at step
      split at step
      · cases step
        exact ok.collect (by simp [point]) (by rw [point]; rfl) early rfl trivial
      · cases step
  | loopTop =>
      rw [point] at step
      dsimp only at step
      split at step
      · cases step
        exact ok.goTo point (by decide) rfl rfl trivial
      · cases step
        exact ok.beginAttempt (by simp [point]) (by rw [point]; rfl)
  | nextAddress =>
      rw [point] at step
      cases step
      exact ok.advance (by rw [point]; rfl)
  | exhaustedIpv4 =>
      rw [point] at step
      cases step
      split <;> exact ok.goTo point (by decide) rfl rfl trivial
  | exhaustedIpv6 =>
      rw [point] at step
      cases step
      split <;> exact ok.goTo point (by decide) rfl rfl trivial
  | pendingIpv4 =>
      rw [point] at step
      cases step
      split <;> exact ok.goTo point (by decide) rfl rfl trivial
  | pendingIpv6 =>
      rw [point] at step
      cases step
      split <;> exact ok.goTo point (by decide) rfl rfl trivial
  | pendingCancel =>
      rw [point] at step
      dsimp only at step
      split at step
      · cases step
        exact ok.goTo point (by decide) rfl rfl trivial
      · cases step
        split <;> exact ok.goTo point (by decide) rfl rfl trivial
  | afterWait =>
      rw [point] at step
      dsimp only at step
      split at step
      · cases step
        exact ok.goTo point (by decide) rfl rfl trivial
      · cases step
        exact ok.goTo point (by decide) rfl rfl trivial
  | collectIpv4 =>
      rw [point] at step
      dsimp only at step
      split at step
      · cases step
        exact ok.goTo point (by decide) rfl rfl trivial
      · rename_i valid
        split at step
        · cases step
          exact ok.collect (by simp [point]) (by rw [point]; rfl) (by simpa using valid) rfl trivial
        · cases step
  | collectIpv6 =>
      rw [point] at step
      dsimp only at step
      split at step
      · cases step
        exact ok.goTo point (by decide) rfl rfl trivial
      · rename_i valid
        split at step
        · cases step
          exact ok.collect (by simp [point]) (by rw [point]; rfl) (by simpa using valid) rfl trivial
        · cases step
  | attempting => simp [point] at step
  | checking => simp [point] at step
  | pendingCheck => simp [point] at step
  | left => simp [point] at step

theorem ListsOk.frame (ok : ListsOk answers s) (point : s'.point = s.point)
    (whichIndex : s'.whichIndex = s.whichIndex) (attempts : s'.attempts = s.attempts)
    (results : s'.results = s.results) (collected : s'.collected = s.collected)
    (socket : s'.socket = s.socket)
    (complete : ∀ family, s.complete family = true → s'.complete family = true) :
    ListsOk answers s' where
  attempted family := by
    simp only [attemptsOf, attempts]
    exact ok.attempted family
  progress := by
    rw [point, socket]
    intro inside family
    have progress := ok.progress inside family
    simp only [attemptsOf, remaining, point, whichIndex, attempts, results, collected] at progress ⊢
    exact progress
  current := by
    rw [point, results, whichIndex]
    exact ok.current
  early := by
    have early := ok.early
    unfold Early at early ⊢
    rw [point, collected]
    cases at' : s.point <;> simp_all

theorem ListsOk.busy (ok : ListsOk answers s) (busy : s.point.busy = true) {point : Point}
    (busy' : point.busy = true) {pendingSockets : List (Family × α)}
    {socket : Option (Family × α)} :
    ListsOk answers { s with
      pendingSockets := pendingSockets, socket := socket, point := point } where
  attempted := ok.attempted
  progress _ family := by
    have progress := ok.progress (.inl (Point.ne_left_of_busy busy)) family
    simp only [attemptsOf, remaining, busy, busy', true_and] at progress ⊢
    exact progress
  current _ := ok.current busy
  early := by
    unfold Early
    cases point <;> trivial

theorem ListsOk.connect (ok : ListsOk answers s) {pendingSockets : List (Family × α)}
    {socket : Family × α} :
    ListsOk answers { s with
      pendingSockets := pendingSockets, socket := some socket, point := .left } where
  attempted := ok.attempted
  progress outside := by simp at outside
  current busy := by cases busy
  early := trivial

theorem ListsOk.attempt (ok : ListsOk answers s) {outcome : Outcome}
    (step : attempt s outcome = some s') : ListsOk answers s' := by
  unfold TcpConnect.attempt at step
  cases point : s.point with
  | attempting =>
      have busy : s.point.busy = true := by rw [point]; rfl
      rw [point] at step
      dsimp only at step
      split at step
      · cases step
      · cases outcome with
        | socketFailed =>
            cases step
            exact ok.busy busy rfl
        | fcntlFailed =>
            cases step
            exact ok.busy busy rfl
        | connectFailed =>
            cases step
            exact ok.busy busy rfl
        | inProgress =>
            cases step
            exact ok.busy busy rfl
        | connected =>
            cases step
            exact ok.connect
  | _ => simp [point] at step

theorem ListsOk.check (ok : ListsOk answers s) {status : Nat → SocketStatus}
    (step : check s status = some s') : ListsOk answers s' := by
  unfold TcpConnect.check at step
  dsimp only at step
  generalize (checkConnections status s.pendingSockets 0).1 = pendingSockets at step
  generalize (checkConnections status s.pendingSockets 0).2.or s.socket = socket at step
  cases point : s.point with
  | checking =>
      rw [point] at step
      cases step
      cases socket with
      | some sock => exact ok.connect
      | none => exact ok.busy (by rw [point]; rfl) rfl
  | pendingCheck =>
      rw [point] at step
      cases step
      exact ok.keep (by simp [point]) (by rw [point]; rfl) rfl rfl rfl rfl trivial
  | _ => simp [point] at step

theorem ListsOk.next (ok : ListsOk answers s) {action : Action}
    (step : next answers s action = some s') : ListsOk answers s' := by
  cases action with
  | step => exact ok.workerStep step
  | attempt outcome => exact ok.attempt step
  | check status => exact ok.check step
  | publish family =>
      simp only [TcpConnect.next] at step
      split at step
      · cases step
      · cases step
        exact ok.frame rfl rfl rfl rfl rfl rfl (fun _ flag => flag)
  | complete family =>
      simp only [TcpConnect.next] at step
      split at step
      · cases step
        refine ok.frame rfl rfl rfl rfl rfl rfl ?_
        intro other flag
        by_cases same : other = family
        · subst same
          simp
        · simpa [Function.update_of_ne same] using flag
      · cases step
  | disconnect =>
      cases step
      exact ok.frame rfl rfl rfl rfl rfl rfl (fun _ flag => flag)
  | connect =>
      cases step
      exact ok.frame rfl rfl rfl rfl rfl rfl (fun _ flag => flag)

theorem ListsOk.initial (answers : Family → List α) : ListsOk answers State.initial where
  attempted _ := List.nil_prefix
  progress _ _ := rfl
  current busy := by cases busy
  early := ⟨rfl, rfl⟩

/-! ## Coverage -/

/-- The lookup has addresses that were not collected. -/
def missing (answers : Family → List α) (s : State α) (family : Family) : Bool :=
  !s.collected family && !(answers family).isEmpty

/-- IPv6 addresses are missing while IPv4 has answered without any. -/
def stranded (answers : Family → List α) (s : State α) : Bool :=
  missing answers s .ipv6 && s.collected .ipv4 && (s.results .ipv4).isEmpty

/-- Where IPv4 answers without addresses, IPv6 is either seen complete at the first look, or is
incomplete at the second and complete at the third; and no answer is published between the look at
its future and the test whether both lookups are complete. -/
def timely (answers : Family → List α) (s : State α) : Action → Bool
  | .step =>
      match s.point with
      | .secondIpv6 => !(s.complete .ipv6 && stranded answers s)
      | .thirdIpv6 => !(!s.complete .ipv6 && stranded answers s)
      | .exhaustedIpv6 =>
          !(s.complete .ipv6 && (missing answers s .ipv6 || missing answers s .ipv4))
      | _ => true
  | _ => true

def Covered (answers : Family → List α) (s : State α) : Prop :=
  ∀ family, s.collected family = true ∨ answers family = []

def AllTaken (s : State α) : Prop := ∀ family, s.results family = []

theorem collected_or_nil_of_missing {family : Family} (present : missing answers s family = false) :
    s.collected family = true ∨ answers family = [] := by
  simp only [missing, Bool.and_eq_false_iff, Bool.not_eq_false'] at present
  exact present.imp id List.isEmpty_iff.mp

/-- What each point knows about the answers, unless the attempt was cancelled. -/
def Knows (answers : Family → List α) (s : State α) : Prop :=
  match s.point with
  | .firstIpv6 => s.complete .ipv4 = true ∨ s.complete .ipv6 = true
  | .firstIpv4 => s.collected .ipv6 = true ∨ s.complete .ipv4 = true
  | .secondIpv6 => s.collected .ipv6 = true ∨ s.collected .ipv4 = true
  | .thirdIpv6 => s.collected .ipv4 = true
  | .needIpv4 => s.collected .ipv6 = true ∨
      s.collected .ipv4 = true ∧ (s.results .ipv4 ≠ [] ∨ answers .ipv6 = [])
  | .getIpv4 => s.collected .ipv6 = true
  | .loopTop => AllTaken s → Covered answers s
  | .collectIpv6 => s.collected .ipv4 = true
  | .left => s.socket = none → AllTaken s ∧ Covered answers s
  | _ => True

structure CoverOk (answers : Family → List α) (s : State α) : Prop where
  cancel : s.cancelConnect = true → s.cancelled = true
  knows : s.cancelled = false → Knows answers s

theorem covered_of_both (first : s.collected .ipv6 = true ∨ answers .ipv6 = [])
    (second : s.collected .ipv4 = true ∨ answers .ipv4 = []) : Covered answers s := by
  intro family
  cases family with
  | ipv6 => exact first
  | ipv4 => exact second

theorem allTaken_of_both {family : Family} (here : s.results family = [])
    (there : s.results family.other = []) : AllTaken s := by
  intro other
  cases family <;> cases other <;> first | exact here | exact there

/-- The loop goes on exactly when addresses are left. -/
theorem findAddress_knows (answers : Family → List α) (s : State α) :
    Knows answers (findAddress s) := by
  unfold findAddress
  split
  · split
    · trivial
    · rename_i more
      exact fun taken => absurd (taken _) more
  · rename_i more
    exact fun taken => absurd (taken _) more

theorem beginAttempt_knows (knows : AllTaken s → Covered answers s) :
    Knows answers (beginAttempt s) := by
  unfold beginAttempt
  dsimp only
  split
  · rename_i nothing
    have taken : AllTaken s := by
      by_cases here : s.results s.whichIndex = []
      · rw [if_pos here] at nothing
        exact allTaken_of_both here nothing
      · rw [if_neg here] at nothing
        exact absurd nothing here
    exact fun _ => ⟨taken, knows taken⟩
  · trivial

theorem of_not_stranded (present : stranded answers s = false) (ipv4 : s.collected .ipv4 = true) :
    s.collected .ipv6 = true ∨
      s.collected .ipv4 = true ∧ (s.results .ipv4 ≠ [] ∨ answers .ipv6 = []) := by
  cases absent : missing answers s .ipv6 with
  | false =>
      exact (collected_or_nil_of_missing absent).imp id fun nothing => ⟨ipv4, .inr nothing⟩
  | true =>
      right
      refine ⟨ipv4, .inl ?_⟩
      intro nothing
      simp [stranded, absent, ipv4, nothing] at present

theorem Knows.workerStep (knows : Knows answers s) (lists : ListsOk answers s)
    (cancel : s.cancelConnect = false) (inTime : timely answers s .step = true)
    (step : workerStep answers s = some s') : Knows answers s' := by
  have early := lists.early
  unfold Early at early
  unfold Knows at knows
  unfold TcpConnect.workerStep at step
  cases point : s.point with
  | waitCancel =>
      rw [point] at step
      cases step
      simp [Knows, cancel]
  | waitIpv4 =>
      rw [point] at step
      cases step
      cases complete : s.complete .ipv4 with
      | true => exact .inl complete
      | false => trivial
  | waitIpv6 =>
      rw [point] at step
      cases step
      cases complete : s.complete .ipv6 with
      | true => exact .inr complete
      | false => trivial
  | firstIpv6 =>
      rw [point] at step knows
      cases step
      cases complete : s.complete .ipv6 with
      | true =>
          left
          simp [collect]
      | false =>
          right
          simpa [complete] using knows
  | firstIpv4 =>
      rw [point] at step knows
      cases step
      cases complete : s.complete .ipv4 with
      | true =>
          right
          simp [collect]
      | false =>
          left
          simpa [complete] using knows
  | secondIpv6 =>
      rw [point] at step knows early
      cases step
      cases complete : s.complete .ipv6 with
      | true =>
          have present : stranded answers s = false := by
            simpa [timely, point, complete] using inTime
          rcases knows with ipv6 | ipv4
          · exact .inl ipv6
          · exact of_not_stranded present ipv4
      | false =>
          have valid : ¬ s.collected .ipv6 = true := by
            intro collected
            have flag := early collected
            rw [complete] at flag
            cases flag
          exact knows.resolve_left valid
  | thirdIpv6 =>
      rw [point] at step knows
      cases step
      cases complete : s.complete .ipv6 with
      | true =>
          left
          simp [collect]
      | false =>
          have present : stranded answers s = false := by
            simpa [timely, point, complete] using inTime
          exact of_not_stranded present knows
  | needIpv4 =>
      rw [point] at step knows early
      dsimp only at step
      split at step
      · rename_i needed
        cases step
        rcases knows with collected | ⟨collected, _⟩
        · exact collected
        · rw [needed.1] at collected
          cases collected
      · rename_i unneeded
        cases step
        intro taken
        have nothing : ∀ family, s.results family = [] := taken
        rcases knows with ipv6 | ⟨ipv4, more | none⟩
        · have ipv4 : s.collected .ipv4 = true := by
            by_contra valid
            exact unneeded ⟨by simpa using valid, early ipv6, nothing .ipv6⟩
          exact covered_of_both (.inl ipv6) (.inl ipv4)
        · exact absurd (nothing .ipv4) more
        · exact covered_of_both (.inr none) (.inl ipv4)
  | getIpv4 =>
      rw [point] at step knows
      dsimp only at step
      split at step
      · cases step
        intro taken
        refine covered_of_both (.inl ?_) (.inl ?_)
        · simpa [chooseFirst, collect] using knows
        · simp [chooseFirst, collect]
      · cases step
  | loopTop =>
      rw [point] at step knows
      simp only [cancel, Bool.false_eq_true, if_false] at step
      cases step
      exact beginAttempt_knows knows
  | nextAddress =>
      rw [point] at step
      cases step
      unfold advance
      dsimp only
      split
      · exact findAddress_knows answers _
      · exact findAddress_knows answers _
  | exhaustedIpv4 =>
      rw [point] at step
      cases step
      cases s.complete .ipv4 <;> trivial
  | exhaustedIpv6 =>
      rw [point] at step
      cases step
      cases complete : s.complete .ipv6 with
      | true =>
          have present : missing answers s .ipv6 = false ∧ missing answers s .ipv4 = false := by
            simpa [timely, point, complete] using inTime
          intro taken
          exact covered_of_both (collected_or_nil_of_missing present.1)
            (collected_or_nil_of_missing present.2)
      | false => trivial
  | pendingIpv4 =>
      rw [point] at step
      cases step
      cases s.complete .ipv4 <;> trivial
  | pendingIpv6 =>
      rw [point] at step
      cases step
      cases s.complete .ipv6 <;> trivial
  | pendingCancel =>
      rw [point] at step
      dsimp only at step
      split at step
      · cases step
        trivial
      · cases step
        cases s.pendingSockets <;> trivial
  | afterWait =>
      rw [point] at step
      dsimp only at step
      split at step
      · rename_i connected
        cases step
        intro nothing
        rcases connected with some | cancelled
        · dsimp only at nothing
          simp [nothing] at some
        · rw [cancel] at cancelled
          cases cancelled
      · cases step
        trivial
  | collectIpv4 =>
      rw [point] at step
      dsimp only at step
      split at step
      · rename_i collected
        cases step
        exact collected
      · split at step
        · cases step
          simp [Knows, collect]
        · cases step
  | collectIpv6 =>
      rw [point] at step knows
      dsimp only at step
      split at step
      · rename_i collected
        cases step
        exact fun _ => covered_of_both (.inl collected) (.inl knows)
      · split at step
        · cases step
          intro taken
          refine covered_of_both (.inl ?_) (.inl ?_)
          · simp [collect]
          · simpa [collect] using knows
        · cases step
  | attempting => simp [point] at step
  | checking => simp [point] at step
  | pendingCheck => simp [point] at step
  | left => simp [point] at step

theorem CoverOk.attempt (ok : CoverOk answers s) {outcome : Outcome}
    (step : attempt s outcome = some s') : CoverOk answers s' := by
  unfold TcpConnect.attempt at step
  split at step
  · split at step
    · cases step
    · cases outcome with
      | connected =>
          cases step
          exact { ok with knows := fun _ => by simp [Knows] }
      | socketFailed =>
          cases step
          exact { ok with knows := fun _ => trivial }
      | fcntlFailed =>
          cases step
          exact { ok with knows := fun _ => trivial }
      | connectFailed =>
          cases step
          exact { ok with knows := fun _ => trivial }
      | inProgress =>
          cases step
          exact { ok with knows := fun _ => trivial }
  · cases step

theorem CoverOk.check (ok : CoverOk answers s) {status : Nat → SocketStatus}
    (step : check s status = some s') : CoverOk answers s' := by
  unfold TcpConnect.check at step
  dsimp only at step
  generalize (checkConnections status s.pendingSockets 0).1 = pendingSockets at step
  generalize (checkConnections status s.pendingSockets 0).2.or s.socket = socket at step
  split at step
  · cases step
    cases socket with
    | some sock => exact { ok with knows := fun _ => by simp [Knows] }
    | none => exact { ok with knows := fun _ => trivial }
  · cases step
    exact { ok with knows := fun _ => trivial }
  · cases step

theorem Knows.complete (knows : Knows answers s) (family : Family) :
    Knows answers { s with complete := Function.update s.complete family true } := by
  have mono : ∀ other, s.complete other = true →
      Function.update s.complete family true other = true := by
    intro other flag
    by_cases same : other = family
    · subst same
      simp
    · simpa [Function.update_of_ne same] using flag
  unfold Knows at knows ⊢
  cases point : s.point with
  | firstIpv6 =>
      rw [point] at knows
      exact knows.imp (mono _) (mono _)
  | firstIpv4 =>
      rw [point] at knows
      exact knows.imp id (mono _)
  | _ =>
      rw [point] at knows
      exact knows

/-- What the worker leaves alone in a step without a system call. -/
structure Frame (s s' : State α) : Prop where
  cancelConnect : s'.cancelConnect = s.cancelConnect
  cancelled : s'.cancelled = s.cancelled
  pendingSockets : s'.pendingSockets = s.pendingSockets
  socket : s'.socket = s.socket

theorem findAddress_frame (s : State α) : Frame s (findAddress s) := by
  unfold findAddress
  split <;> exact ⟨rfl, rfl, rfl, rfl⟩

theorem beginAttempt_frame (s : State α) : Frame s (beginAttempt s) := by
  unfold beginAttempt
  dsimp only
  split <;> exact ⟨rfl, rfl, rfl, rfl⟩

theorem advance_frame (answers : Family → List α) (s : State α) : Frame s (advance answers s) := by
  unfold advance
  dsimp only
  split
  · have found := findAddress_frame (collect answers { s with
      results := Function.update s.results s.whichIndex (s.results s.whichIndex).tail
      whichIndex := s.whichIndex.other
      point := .loopTop } s.whichIndex.other)
    exact ⟨found.1, found.2, found.3, found.4⟩
  · have found := findAddress_frame { s with
      results := Function.update s.results s.whichIndex (s.results s.whichIndex).tail
      whichIndex := s.whichIndex.other
      point := .loopTop }
    exact ⟨found.1, found.2, found.3, found.4⟩

theorem workerStep_frame (step : workerStep answers s = some s') : Frame s s' := by
  unfold workerStep at step
  cases point : s.point with
  | loopTop =>
      rw [point] at step
      dsimp only at step
      split at step
      · cases step
        exact ⟨rfl, rfl, rfl, rfl⟩
      · cases step
        exact beginAttempt_frame s
  | nextAddress =>
      rw [point] at step
      cases step
      exact advance_frame answers s
  | firstIpv6 =>
      rw [point] at step
      cases step
      split <;> exact ⟨rfl, rfl, rfl, rfl⟩
  | firstIpv4 =>
      rw [point] at step
      cases step
      split <;> exact ⟨rfl, rfl, rfl, rfl⟩
  | thirdIpv6 =>
      rw [point] at step
      cases step
      split <;> exact ⟨rfl, rfl, rfl, rfl⟩
  | _ =>
      rw [point] at step
      simp only at step
      (repeat' split at step) <;> cases step <;> exact ⟨rfl, rfl, rfl, rfl⟩

theorem CoverOk.next (ok : CoverOk answers s) (lists : ListsOk answers s) {action : Action}
    (inTime : timely answers s action = true) (step : next answers s action = some s') :
    CoverOk answers s' := by
  cases action with
  | step =>
      obtain ⟨cancel, cancelled, _, _⟩ := workerStep_frame step
      refine { cancel := ?_, knows := ?_ }
      · rw [cancel, cancelled]
        exact ok.cancel
      · rw [cancelled]
        intro never
        have running : s.cancelConnect = false := by
          by_contra set
          rw [ok.cancel (by simpa using set)] at never
          cases never
        exact (ok.knows never).workerStep lists running inTime step
  | attempt outcome => exact ok.attempt step
  | check status => exact ok.check step
  | publish family =>
      simp only [TcpConnect.next] at step
      split at step
      · cases step
      · cases step
        exact { ok with knows := ok.knows }
  | complete family =>
      simp only [TcpConnect.next] at step
      split at step
      · cases step
        exact { ok with knows := fun never => (ok.knows never).complete family }
      · cases step
  | disconnect =>
      cases step
      exact { cancel := fun _ => rfl, knows := by simp }
  | connect =>
      cases step
      exact { cancel := by simp, knows := ok.knows }

theorem CoverOk.initial (answers : Family → List α) : CoverOk answers State.initial where
  cancel := by simp [State.initial]
  knows _ := trivial

/-! ## Runs -/

/-- Every address is attempted at most once, in the order of its list; and in runs in which no
answer slips through, all addresses are attempted before the loop is left without a connection. -/
theorem addresses_are_attempted (answers : Family → List α) :
    (∀ s, Reachable (next answers) (fun _ _ => True) State.initial s →
      ∀ family, attemptsOf s family <+: answers family) ∧
    ∀ s, Reachable (next answers) (fun s action => timely answers s action = true) State.initial s →
      s.point = .left → s.socket = none → s.cancelled = false →
      ∀ family, attemptsOf s family = answers family := by
  constructor
  · intro s reachable
    refine ListsOk.attempted (reachable.invariant (ListsOk answers) (.initial answers) ?_)
    intro before action after ok _ step
    exact ok.next step
  · intro s reachable left unconnected never family
    have both : ListsOk answers s ∧ CoverOk answers s := by
      refine reachable.invariant (fun s => ListsOk answers s ∧ CoverOk answers s)
        ⟨.initial answers, .initial answers⟩ ?_
      intro before action after ok inTime step
      exact ⟨ok.1.next step, ok.2.next ok.1 inTime step⟩
    have knows := both.2.knows never
    unfold Knows at knows
    rw [left] at knows
    obtain ⟨taken, covered⟩ := knows unconnected
    have progress := both.1.progress (.inr unconnected) family
    simp only [remaining, left, Point.busy, Bool.false_eq_true, false_and, if_false, taken family,
      List.append_nil] at progress
    rw [progress]
    rcases covered family with collected | nothing
    · rw [if_pos collected]
    · rw [nothing, ite_self]

/-- The lists of two lookups. -/
def lookups (ipv6 ipv4 : List Nat) : Family → List Nat
  | .ipv6 => ipv6
  | .ipv4 => ipv4

/-- One attempt fails, one hangs and fails later, one gets no socket. -/
theorem three_addresses_are_attempted :
    ∃ s : State Nat,
      Reachable (next (lookups [1] [2, 3]))
        (fun s action => timely (lookups [1] [2, 3]) s action = true) State.initial s ∧
      (s.point = .left ∧ s.socket = none ∧ s.cancelled = false) ∧
      s.attempts = [(.ipv6, 1), (.ipv4, 2), (.ipv4, 3)] ∧
      ∀ family, attemptsOf s family = lookups [1] [2, 3] family := by
  have executed : (runActions (next (lookups [1] [2, 3]))
      (fun s action => timely (lookups [1] [2, 3]) s action = true) State.initial
      (List.flatten [[.publish .ipv6, .complete .ipv6], List.replicate 8 .step,
        [.attempt .connectFailed, .publish .ipv4, .step, .step, .attempt .inProgress,
          .check fun _ => .waiting, .step, .step, .attempt .socketFailed],
        List.replicate 4 .step, [.check fun _ => .failed, .complete .ipv4],
        List.replicate 6 .step])).map (fun s => (s.point, s.socket, s.cancelled, s.attempts)) =
      some (.left, none, false, [(.ipv6, 1), (.ipv4, 2), (.ipv4, 3)]) := by
    decide +kernel
  obtain ⟨s, executed, result⟩ := Option.map_eq_some_iff.mp executed
  simp only [Prod.mk.injEq] at result
  obtain ⟨left, unconnected, never, attempts⟩ := result
  have reachable := Reachable.of_runActions _ .start executed
  exact ⟨s, reachable, ⟨left, unconnected, never⟩, attempts,
    (addresses_are_attempted (lookups [1] [2, 3])).2 s reachable left unconnected never⟩

/-- IPv4 answers without addresses while IPv6 is slow, or IPv6 answers between the look at its
future and the test of the flags: its address is never attempted. -/
theorem an_address_is_never_attempted :
    (∃ s : State Nat, Reachable (next (lookups [1] [])) (fun _ _ => True) State.initial s ∧
      s.point = .left ∧ s.socket = none ∧ s.cancelled = false ∧ s.attempts = []) ∧
    ∃ s : State Nat, Reachable (next (lookups [1] [2])) (fun _ _ => True) State.initial s ∧
      s.point = .left ∧ s.socket = none ∧ s.cancelled = false ∧ s.attempts = [(.ipv4, 2)] := by
  have slow : (runActions (next (lookups [1] [])) (fun _ _ => True) State.initial
      (.publish .ipv4 :: .complete .ipv4 :: List.replicate 8 .step)).map
        (fun s => (s.point, s.socket, s.cancelled, s.attempts)) =
      some (.left, none, false, []) := by
    decide +kernel
  have between : (runActions (next (lookups [1] [2])) (fun _ _ => True) State.initial
      (List.flatten [[.publish .ipv4, .complete .ipv4], List.replicate 8 .step,
        [.attempt .connectFailed, .step, .publish .ipv6, .complete .ipv6, .step, .step, .step]])).map
        (fun s => (s.point, s.socket, s.cancelled, s.attempts)) =
      some (.left, none, false, [(.ipv4, 2)]) := by
    decide +kernel
  obtain ⟨s, executed, result⟩ := Option.map_eq_some_iff.mp slow
  obtain ⟨s', executed', result'⟩ := Option.map_eq_some_iff.mp between
  simp only [Prod.mk.injEq] at result result'
  exact ⟨⟨s, Reachable.of_runActions _ .start executed, result⟩,
    ⟨s', Reachable.of_runActions _ .start executed', result'⟩⟩

end FreeDV.Util.TcpConnect
