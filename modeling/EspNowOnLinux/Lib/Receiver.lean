import EspNowOnLinux.Lib.SelfDelimiting

/-!
# Receivers that drop what they do not know

A receiver of self-delimiting messages whose data arrives in pieces. After each piece it takes the
complete messages off the front of what it has. The rest is kept until more arrives, unless it is
`junk`: then all of it is dropped, whatever would have followed.

* `Receives next junk left pieces taken left'`: with `left` in the buffer the `pieces` arrive,
  `taken` is taken off the front, and `left'` is kept in the end;
* pieces are received in one way only (`Receives.unique`), and all of them is either taken or kept
  (`Receives.flatten_data`).
-/

namespace Framing

variable {β μ : Type*}

/-- What a receiver takes off the front of its data. -/
inductive Taken (β : Type*)
  /-- A complete message. -/
  | message (m : List β)
  /-- A rest that is dropped. -/
  | junk (rest : List β)

namespace Taken

/-- The elements that are taken. -/
def data : Taken β → List β
  | message m => m
  | junk rest => rest

/-- The message that is taken, if it is one. -/
def message? : Taken β → Option (List β)
  | message m => some m
  | junk _ => none

/-- The messages among what is taken. -/
def messages (taken : List (Taken β)) : List (List β) := taken.filterMap message?

end Taken

section Receives

variable (next : List β → Option ℕ) (junk : List β → Prop) [DecidablePred junk]

/-- What is taken of a rest that starts with no complete message. -/
def takenRest (rest : List β) : List (Taken β) := if junk rest then [.junk rest] else []

/-- What is kept of it. -/
def keptRest (rest : List β) : List β := if junk rest then [] else rest

/-- With `left` in the buffer the pieces arrive, `taken` is taken off the front, and `left'` is
kept. -/
inductive Receives : List β → List (List β) → List (Taken β) → List β → Prop
  | nil (left : List β) : Receives left [] [] left
  | cons {left piece rest left' : List β} {ms pieces : List (List β)} {taken : List (Taken β)}
      (hcut : Cut next (left ++ piece) ms rest)
      (hpieces : Receives (keptRest junk rest) pieces taken left') :
      Receives left (piece :: pieces) (ms.map .message ++ takenRest junk rest ++ taken) left'

end Receives

variable {next : List β → Option ℕ} {junk : List β → Prop} [DecidablePred junk]
  {left left' left'' : List β} {pieces : List (List β)} {taken taken' : List (Taken β)}

/-- A rest is taken or kept. -/
theorem data_takenRest_append_keptRest (rest : List β) :
    (takenRest junk rest).flatMap Taken.data ++ keptRest junk rest = rest := by
  unfold takenRest keptRest
  split
  · simp [Taken.data]
  · rfl

@[simp]
theorem messages_takenRest (rest : List β) : Taken.messages (takenRest junk rest) = [] := by
  unfold takenRest
  split <;> rfl

@[simp]
theorem messages_map_message (ms : List (List β)) : Taken.messages (ms.map .message) = ms := by
  rw [Taken.messages, List.filterMap_map]
  exact List.filterMap_some

theorem messages_cons_message (m : List β) (taken : List (Taken β)) :
    Taken.messages (.message m :: taken) = m :: Taken.messages taken := rfl

theorem messages_append (taken taken' : List (Taken β)) :
    Taken.messages (taken ++ taken') = Taken.messages taken ++ Taken.messages taken' :=
  List.filterMap_append

theorem data_map_message (ms : List (List β)) :
    (ms.map Taken.message).flatMap Taken.data = ms.flatten := by
  rw [List.flatMap_map]
  exact List.flatMap_id

/-- Pieces are received in one way only. -/
theorem Receives.unique (h : SelfDelimiting next) (hr : Receives next junk left pieces taken left')
    (hr' : Receives next junk left pieces taken' left'') : taken = taken' ∧ left' = left'' := by
  induction hr generalizing taken' with
  | nil left =>
      cases hr'
      exact ⟨rfl, rfl⟩
  | cons hcut hpieces ih =>
      cases hr' with
      | cons hcut' hpieces' =>
          -- the cut is unique, so the same is kept for the pieces behind
          obtain ⟨rfl, rfl⟩ := hcut.unique h hcut'
          obtain ⟨rfl, rfl⟩ := ih hpieces'
          exact ⟨rfl, rfl⟩

/-- Nothing is lost: what arrives is taken or kept, in the order in which it arrives. -/
theorem Receives.flatten_data (hr : Receives next junk left pieces taken left') :
    taken.flatMap Taken.data ++ left' = left ++ pieces.flatten := by
  induction hr with
  | nil left => exact (List.append_nil left).symm
  | @cons left piece rest left' ms pieces taken hcut hpieces ih =>
      rw [List.flatMap_append, List.append_assoc, ih, List.flatMap_append, data_map_message,
        List.append_assoc, ← List.append_assoc _ (keptRest junk rest),
        data_takenRest_append_keptRest, ← List.append_assoc, hcut.flatten_append,
        List.flatten_cons, List.append_assoc]

/-- One more piece. -/
theorem Receives.concat (hr : Receives next junk left pieces taken left') {piece rest : List β}
    {ms : List (List β)} (hcut : Cut next (left' ++ piece) ms rest) :
    Receives next junk left (pieces ++ [piece])
      (taken ++ (ms.map .message ++ takenRest junk rest)) (keptRest junk rest) := by
  induction hr with
  | nil left =>
      have hlast : Receives next junk left [piece]
          (ms.map .message ++ takenRest junk rest ++ []) (keptRest junk rest) := .cons hcut (.nil _)
      rwa [List.append_nil] at hlast
  | cons hcut' hpieces ih =>
      rw [List.append_assoc]
      exact .cons hcut' (ih hcut)

end Framing
