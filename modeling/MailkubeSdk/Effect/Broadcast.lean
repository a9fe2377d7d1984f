import Mathlib.Data.List.Basic

/-
Broadcasts.

A subscriber that joins a broadcast receives what is sent from then on, and
nothing of what was sent before.
-/

namespace Effect

/-- A new subscriber, or something sent to all there are. -/
inductive Broadcast (M : Type) where
  | join
  | sent (message : M)

variable {M : Type}

/-- What each subscriber has received, in the order they joined. -/
def deliver (received : List (List M)) : Broadcast M → List (List M)
  | .join => received ++ [[]]
  | .sent message => received.map (· ++ [message])

def Broadcast.message? : Broadcast M → Option M
  | .join => none
  | .sent message => some message

def Broadcast.isJoin : Broadcast M → Bool
  | .join => true
  | .sent _ => false

def sentMessages (signals : List (Broadcast M)) : List M := signals.filterMap Broadcast.message?

/-- What those who join receive, each from its own joining on. -/
def tails : List (Broadcast M) → List (List M)
  | [] => []
  | .join :: rest => sentMessages rest :: tails rest
  | .sent _ :: rest => tails rest

@[simp] theorem sentMessages_join (signals : List (Broadcast M)) :
    sentMessages (.join :: signals) = sentMessages signals := rfl

@[simp] theorem sentMessages_append (first second : List (Broadcast M)) :
    sentMessages (first ++ second) = sentMessages first ++ sentMessages second :=
  List.filterMap_append

@[simp] theorem sentMessages_sent (messages : List M) :
    sentMessages (messages.map Broadcast.sent) = messages := by
  unfold sentMessages
  rw [List.filterMap_map]
  exact List.filterMap_some

/-- Those who are there receive everything, and each who joins receives its tail. -/
theorem foldl_deliver (signals : List (Broadcast M)) (received : List (List M)) :
    signals.foldl deliver received =
      received.map (· ++ sentMessages signals) ++ tails signals := by
  induction signals generalizing received with
  | nil =>
      rw [List.foldl_nil, tails, List.append_nil]
      exact ((List.map_congr_left fun _ _ => List.append_nil _).trans (List.map_id _)).symm
  | cons signal rest ih =>
      rw [List.foldl_cons, ih]
      cases signal with
      | join =>
          rw [deliver, List.map_append, List.append_assoc]
          rfl
      | sent message =>
          rw [deliver, List.map_map]
          congr 1
          apply List.map_congr_left
          intro earlier _
          exact List.append_assoc _ _ _

theorem length_tails (signals : List (Broadcast M)) :
    (tails signals).length = signals.countP Broadcast.isJoin := by
  induction signals with
  | nil => rfl
  | cons signal rest ih =>
      cases signal with
      | join => rw [tails, List.length_cons, ih, List.countP_cons_of_pos (by rfl)]
      | sent message => rw [tails, ih, List.countP_cons_of_neg (by nofun)]

/-- One who joins between two stretches receives the second. -/
theorem tails_joined (before after : List (Broadcast M)) :
    (tails (before ++ .join :: after))[before.countP Broadcast.isJoin]? =
      some (sentMessages after) := by
  induction before with
  | nil => rfl
  | cons signal rest ih =>
      cases signal with
      | join =>
          rw [List.cons_append, tails, List.countP_cons_of_pos (by rfl), List.getElem?_cons_succ]
          exact ih
      | sent message =>
          rw [List.cons_append, tails, List.countP_cons_of_neg (by nofun)]
          exact ih

end Effect
