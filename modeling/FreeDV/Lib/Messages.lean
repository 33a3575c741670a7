import Mathlib.Data.List.Forall2

/-!
# Messages on a stream

A stream that carries messages one behind the other. A message may be cut short
anywhere; what follows it is the beginning of the next one.
-/

set_option autoImplicit false

namespace FreeDV.Lib

variable {α : Type*} {stream : List α} {messages : List (List α)} {rest : List α}

/-- The stream is made of beginnings of the messages, in their order. -/
def Conveys (stream : List α) (messages : List (List α)) : Prop :=
  ∃ parts, List.Forall₂ (· <+: ·) parts messages ∧ stream = parts.flatten

/-- The last message is under way, and `rest` of it is still to come. -/
def Conveying (stream : List α) (messages : List (List α)) (rest : List α) : Prop :=
  ∃ before earlier front, Conveys before earlier ∧ stream = before ++ front ∧
    messages = earlier ++ [front ++ rest]

theorem Conveys.nil : Conveys ([] : List α) [] := ⟨[], .nil, rfl⟩

theorem Conveys.begin (conveys : Conveys stream messages) (message : List α) :
    Conveying stream (messages ++ [message]) message :=
  ⟨stream, messages, [], conveys, (List.append_nil stream).symm, rfl⟩

/-- A message may end at any time. -/
theorem Conveying.conveys (conveying : Conveying stream messages rest) :
    Conveys stream messages := by
  obtain ⟨before, earlier, front, ⟨parts, cut, rfl⟩, rfl, rfl⟩ := conveying
  refine ⟨parts ++ [front], List.rel_append cut (.cons (List.prefix_append front rest) .nil), ?_⟩
  rw [List.flatten_append, List.flatten_singleton]

/-- The next part of the message. -/
theorem Conveying.take (conveying : Conveying stream messages rest) (count : Nat) :
    Conveying (stream ++ rest.take count) messages (rest.drop count) := by
  obtain ⟨before, earlier, front, conveys, rfl, rfl⟩ := conveying
  refine ⟨before, earlier, front ++ rest.take count, conveys, List.append_assoc _ _ _, ?_⟩
  rw [List.append_assoc, List.take_append_drop]

end FreeDV.Lib
