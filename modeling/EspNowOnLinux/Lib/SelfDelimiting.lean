import EspNowOnLinux.Lib.Framing

/-!
# Messages that tell their own length

A receiver that knows no sender, only a function `next` that tells from the data at hand how long
the message at the front is. Unlike in `Framing`, the data is arbitrary: it need not be the encoding
of anything.

* `SelfDelimiting next`: a complete message is recognised by its own elements, whatever follows;
* `Cut next data ms rest`: `data` is the complete messages `ms` and a `rest` that starts with no
  complete message. There is one such cut (`SelfDelimiting.exists_cut`, `Cut.unique`), and data that
  arrives in pieces is cut as it is when it arrives at once (`Cut.append`);
* `Takes`: the contract of a handler that takes a complete message off the front.
-/

namespace Framing

variable {β σ : Type*} {next : List β → Option ℕ}

/-- `next data` is the length of the message at the front of `data`, if all of it is there. -/
structure SelfDelimiting (next : List β → Option ℕ) : Prop where
  /-- A message has a first element. -/
  pos : ∀ {data n}, next data = some n → 0 < n
  /-- The message is there. -/
  le : ∀ {data n}, next data = some n → n ≤ data.length
  /-- What follows the message does not matter. -/
  append : ∀ {data n}, next data = some n → ∀ rest, next (data ++ rest) = some n
  /-- The message is recognised as soon as it is there. -/
  take : ∀ {data n}, next data = some n → next (data.take n) = some n

/-- `data` is the complete messages `ms` and a `rest` that starts with no complete message. -/
structure Cut (next : List β → Option ℕ) (data : List β) (ms : List (List β)) (rest : List β) :
    Prop where
  flatten_append : ms.flatten ++ rest = data
  complete : ∀ m ∈ ms, next m = some m.length
  rest_eq : next rest = none

/-- Data that starts with no complete message. -/
theorem cut_of_none {data : List β} (h : next data = none) : Cut next data [] data :=
  ⟨rfl, fun _ hm => absurd hm List.not_mem_nil, h⟩

/-- Any data can be cut. -/
theorem SelfDelimiting.exists_cut (h : SelfDelimiting next) (data : List β) :
    ∃ ms rest, Cut next data ms rest := by
  induction hlen : data.length using Nat.strong_induction_on generalizing data with
  | _ length ih =>
    cases hnext : next data with
    | none => exact ⟨[], data, cut_of_none hnext⟩
    | some n =>
        have hpos := h.pos hnext
        have hle := h.le hnext
        obtain ⟨ms, rest, hcut⟩ := ih (data.drop n).length
          (by rw [List.length_drop]; omega) (data.drop n) rfl
        refine ⟨data.take n :: ms, rest, ?_, ?_, hcut.rest_eq⟩
        · rw [List.flatten_cons, List.append_assoc, hcut.flatten_append, List.take_append_drop]
        · intro m hm
          rcases List.mem_cons.mp hm with rfl | hm
          · rw [h.take hnext, List.length_take, Nat.min_eq_left hle]
          · exact hcut.complete m hm

/-- Data is cut in one way only. -/
theorem Cut.unique (h : SelfDelimiting next) {data : List β} {ms ms' : List (List β)}
    {rest rest' : List β} (hcut : Cut next data ms rest) (hcut' : Cut next data ms' rest') :
    ms = ms' ∧ rest = rest' := by
  induction ms generalizing data ms' with
  | nil =>
      cases ms' with
      | nil => exact ⟨rfl, hcut.flatten_append.trans hcut'.flatten_append.symm⟩
      | cons m' ms' =>
          -- the rest would start with a complete message
          have hnext := h.append (hcut'.complete m' List.mem_cons_self) (ms'.flatten ++ rest')
          rw [← List.append_assoc, ← List.flatten_cons, hcut'.flatten_append,
            ← hcut.flatten_append, List.flatten_nil, List.nil_append, hcut.rest_eq] at hnext
          cases hnext
  | cons m ms ih =>
      have hnext := h.append (hcut.complete m List.mem_cons_self) (ms.flatten ++ rest)
      rw [← List.append_assoc, ← List.flatten_cons, hcut.flatten_append] at hnext
      cases ms' with
      | nil =>
          rw [← hcut'.flatten_append, List.flatten_nil, List.nil_append, hcut'.rest_eq] at hnext
          cases hnext
      | cons m' ms' =>
          have hnext' := h.append (hcut'.complete m' List.mem_cons_self) (ms'.flatten ++ rest')
          rw [← List.append_assoc, ← List.flatten_cons, hcut'.flatten_append, hnext,
            Option.some.injEq] at hnext'
          have heq := hcut.flatten_append.trans hcut'.flatten_append.symm
          rw [List.flatten_cons, List.flatten_cons, List.append_assoc, List.append_assoc] at heq
          obtain ⟨hm, htail⟩ := List.append_inj heq hnext'
          have hcutTail : Cut next (ms.flatten ++ rest) ms rest :=
            ⟨rfl, fun m hm => hcut.complete m (List.mem_cons_of_mem _ hm), hcut.rest_eq⟩
          have hcutTail' : Cut next (ms.flatten ++ rest) ms' rest' :=
            ⟨htail.symm, fun m hm => hcut'.complete m (List.mem_cons_of_mem _ hm), hcut'.rest_eq⟩
          obtain ⟨hms, hrest⟩ := ih hcutTail hcutTail'
          exact ⟨by rw [hm, hms], hrest⟩

/-- More data is cut behind what has been cut already. -/
theorem Cut.append {data more : List β} {ms ms' : List (List β)} {rest rest' : List β}
    (h : Cut next data ms rest) (h' : Cut next (rest ++ more) ms' rest') :
    Cut next (data ++ more) (ms ++ ms') rest' where
  flatten_append := by
    rw [List.flatten_append, List.append_assoc, h'.flatten_append, ← List.append_assoc,
      h.flatten_append]
  complete m hm := (List.mem_append.mp hm).elim (h.complete m) (h'.complete m)
  rest_eq := h'.rest_eq

/-- What has been cut of the front of some data is cut so of all of it. -/
theorem Cut.of_append (h : SelfDelimiting next) {data more : List β} {ms ms' : List (List β)}
    {rest rest' : List β} (hcut : Cut next data ms rest)
    (hall : Cut next (data ++ more) ms' rest') :
    ∃ later, ms' = ms ++ later ∧ Cut next (rest ++ more) later rest' := by
  obtain ⟨later, rest₁, hlater⟩ := h.exists_cut (rest ++ more)
  obtain ⟨rfl, rfl⟩ := hall.unique h (hcut.append hlater)
  exact ⟨later, rfl, hlater⟩

/-- The rest is no longer than the data, and shorter where there is a message. -/
theorem Cut.length_rest_lt (h : SelfDelimiting next) {data : List β} {ms : List (List β)}
    {rest : List β} (hcut : Cut next data ms rest) (hne : ms ≠ []) :
    rest.length < data.length := by
  obtain ⟨m, ms, rfl⟩ := List.exists_cons_of_ne_nil hne
  have hpos := h.pos (hcut.complete m List.mem_cons_self)
  rw [← hcut.flatten_append, List.length_append, List.flatten_cons, List.length_append]
  omega

/-- The contract of a handler with self-delimiting messages: it takes a complete message off the
front of data of at most `capacity` elements, with an effect that depends on the message only. -/
def Takes (handle : σ → List β → Option (Reply σ β)) (next : List β → Option ℕ)
    (effect : σ → List β → σ) (capacity : ℕ) : Prop :=
  ∀ s data n, next data = some n → data.length ≤ capacity → ∃ left, left.length = n ∧
    handle s data = some ⟨n, effect s (data.take n), left ++ data.drop n⟩

end Framing
