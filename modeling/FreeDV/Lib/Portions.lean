import Mathlib.Data.List.Basic

/-!
# A stream worked off in portions

A consumer takes portions of a stream, each as large as its state asks for, until
less than that is left. Whether it is given the stream at once or in pieces, with
what it left of the earlier ones in front, makes no difference.
-/

set_option autoImplicit false

namespace FreeDV.Lib

variable {σ α β : Type*}

/-- How much is taken next, and what becomes of it. -/
structure Consumer (σ α β : Type*) where
  ask : σ → Nat
  ask_pos : ∀ state, 0 < ask state
  process : σ → List α → β × σ

/-- What was made of a stream, and what is left of it. -/
structure Work (σ α β : Type*) where
  made : List β
  state : σ
  rest : List α

namespace Consumer

variable (consumer : Consumer σ α β)

def work (state : σ) (stream : List α) : Work σ α β :=
  if consumer.ask state ≤ stream.length then
    let portion := consumer.process state (stream.take (consumer.ask state))
    let later := work portion.2 (stream.drop (consumer.ask state))
    { later with made := portion.1 :: later.made }
  else ⟨[], state, stream⟩
termination_by stream.length
decreasing_by
  have positive := consumer.ask_pos state
  rw [List.length_drop]
  omega

/-- Gives the stream in pieces. -/
def feed (state : σ) (rest : List α) : List (List α) → Work σ α β
  | [] => ⟨[], state, rest⟩
  | piece :: pieces =>
      let now := consumer.work state (rest ++ piece)
      let later := feed now.state now.rest pieces
      { later with made := now.made ++ later.made }

variable {state : σ} {stream : List α}

theorem work_of_short (short : stream.length < consumer.ask state) :
    consumer.work state stream = ⟨[], state, stream⟩ := by
  rw [work, if_neg (Nat.not_le_of_lt short)]

theorem work_of_enough (enough : consumer.ask state ≤ stream.length) :
    consumer.work state stream =
      let portion := consumer.process state (stream.take (consumer.ask state))
      let later := consumer.work portion.2 (stream.drop (consumer.ask state))
      { later with made := portion.1 :: later.made } := by
  rw [work, if_pos enough]

/-- What is left does not make a portion. -/
theorem work_rest_lt (state : σ) (stream : List α) :
    (consumer.work state stream).rest.length <
      consumer.ask (consumer.work state stream).state := by
  fun_induction consumer.work state stream with
  | case1 state stream enough portion later ih => exact ih
  | case2 state stream short => exact Nat.lt_of_not_le short

/-- More of the stream can come later. -/
theorem work_append (state : σ) (first second : List α) :
    consumer.work state (first ++ second) =
      let now := consumer.work state first
      let later := consumer.work now.state (now.rest ++ second)
      { later with made := now.made ++ later.made } := by
  fun_induction consumer.work state first with
  | case1 state first enough portion later ih =>
      have longer : consumer.ask state ≤ (first ++ second).length := by
        rw [List.length_append]
        omega
      rw [work_of_enough consumer longer, List.take_append_of_le_length enough,
        List.drop_append_of_le_length enough]
      dsimp only
      rw [ih]
      rfl
  | case2 state first short => rfl

/-- The pieces make no difference. -/
theorem feed_eq_work {rest : List α} (short : rest.length < consumer.ask state)
    (pieces : List (List α)) :
    consumer.feed state rest pieces = consumer.work state (rest ++ pieces.flatten) := by
  induction pieces generalizing state rest with
  | nil => rw [List.flatten_nil, List.append_nil, work_of_short consumer short, feed]
  | cons piece pieces ih =>
      have later := ih (consumer.work_rest_lt state (rest ++ piece))
      rw [feed, later, List.flatten_cons, ← List.append_assoc,
        work_append consumer state (rest ++ piece)]

end Consumer

end FreeDV.Lib
