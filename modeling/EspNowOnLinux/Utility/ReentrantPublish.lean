import EspNowOnLinux.Lib.DynamicArray
import EspNowOnLinux.Utility.EventDispatcher

/-!
# Handlers that call back into the dispatcher

`publish<Event>` with handlers that subscribe to events and reset guards while they run. The loop of
`publish` is a range-based `for` over the very vector that `subscribe` appends to and `unsubscribe`
erases from, so the vector is modelled with its storage, and the loop one iteration at a time.

The argument of an event is the same for all its handlers, and what a handler does is told by a
function `call` of the argument and of everything outside the dispatcher.

## Main results

* `VectorDispatcher.Numbered.foldl`: the ids that are subscribed to an event are different;
* `VectorDispatcher.Refines.foldl`: calls do to the vectors what they do to the lists of
  `EventDispatcher`;
* `valid_perform_iff`: a call leaves the elements that the loop has yet to visit alone iff it
  neither subscribes to the event when its vector is full nor unsubscribes one of them;
* `Publishing.inv_step`: as long as the handlers that are followed by others make no other calls,
  the loop calls the subscribed handlers in their order;
* `tolerates_iff`: `publish` tolerates what its handlers do iff this is so;
* `publish_eq_of_tolerable`: then it has the effect of `EventDispatcher.publish`.
-/

open DynamicArray StateMachine

/-- What a handler calls while it runs. -/
inductive HandlerCall (Event Handler : Type*)
  /-- `subscribe<Event>`. -/
  | subscribe (event : Event) (handler : Handler)
  /-- `reset` of the guard that holds this id. -/
  | unsubscribe (id : UInt64)
  deriving DecidableEq

/-- `event_dispatcher`, with the vectors of handlers as they lie in memory. -/
structure VectorDispatcher (Event Handler : Type*) where
  subscribers : Event → Option (DynamicArray (UInt64 × Handler))
  nextId : UInt64

namespace VectorDispatcher

variable {Event Handler : Type*}

/-- The vector of an event, empty if there is none yet. -/
def vector (d : VectorDispatcher Event Handler) (event : Event) :
    DynamicArray (UInt64 × Handler) :=
  (d.subscribers event).getD .empty

/-- The ids that are subscribed to an event. -/
def ids (d : VectorDispatcher Event Handler) (event : Event) : List UInt64 :=
  (d.vector event).elements.map Prod.fst

variable [DecidableEq Event]

/-- The dispatcher after a call. -/
def perform (grow : ℕ → ℕ) (d : VectorDispatcher Event Handler) :
    HandlerCall Event Handler → VectorDispatcher Event Handler
  | .subscribe event handler =>
      let id := d.nextId + 1
      -- the vector is created with the first handler
      let list := (d.vector event).emplaceBack grow (id, handler)
      { subscribers := Function.update d.subscribers event (some list), nextId := id }
  | .unsubscribe id =>
      { d with subscribers := fun event => (d.subscribers event).map (·.eraseIf fun h => h.1 = id) }

/-- The dispatcher whose loop over the handlers of `event` is about to begin. -/
def watch (d : VectorDispatcher Event Handler) (event : Event) : VectorDispatcher Event Handler :=
  { d with subscribers :=
      Function.update d.subscribers event ((d.subscribers event).map DynamicArray.watch) }

variable (grow : ℕ → ℕ) (d : VectorDispatcher Event Handler) (event : Event)

theorem vector_subscribe_self (handler : Handler) :
    (d.perform grow (.subscribe event handler)).vector event =
      (d.vector event).emplaceBack grow (d.nextId + 1, handler) := by
  simp [vector, perform]

theorem vector_subscribe_of_ne {event' : Event} (handler : Handler) (h : event' ≠ event) :
    (d.perform grow (.subscribe event' handler)).vector event = d.vector event := by
  simp [vector, perform, Function.update_of_ne h.symm]

theorem vector_unsubscribe (id : UInt64) :
    (d.perform grow (.unsubscribe id)).vector event =
      (d.vector event).eraseIf fun h => h.1 = id := by
  simp only [vector, perform]
  cases d.subscribers event <;> rfl

theorem vector_watch : (d.watch event).vector event = (d.vector event).watch := by
  simp only [vector, watch, Function.update_self]
  cases d.subscribers event <;> rfl

/-! ### Ids -/

/-- The ids of an event are different, and the next id is greater. -/
structure Numbered : Prop where
  nodup : ∀ event, (d.ids event).Nodup
  id_le : ∀ event, ∀ id ∈ d.ids event, id.toNat ≤ d.nextId.toNat

omit [DecidableEq Event] in
theorem numbered_new : (⟨fun _ => none, 0⟩ : VectorDispatcher Event Handler).Numbered where
  nodup _ := List.nodup_nil
  id_le _ _ h := absurd h List.not_mem_nil

variable {d grow}

/-- Until the ids run out, a call keeps them different. -/
theorem Numbered.perform (h : d.Numbered) (call : HandlerCall Event Handler)
    (hlt : d.nextId.toNat + 1 < 2 ^ 64) : (d.perform grow call).Numbered := by
  cases call with
  | unsubscribe id =>
      have hsublist : ∀ event, ((d.perform grow (.unsubscribe id)).ids event).Sublist
          (d.ids event) := by
        intro event
        rw [ids, d.vector_unsubscribe]
        exact List.filter_sublist.map Prod.fst
      exact ⟨fun event => (h.nodup event).sublist (hsublist event),
        fun event i hi => h.id_le event i ((hsublist event).subset hi)⟩
  | subscribe event handler =>
      have hnext : (d.perform grow (.subscribe event handler)).nextId.toNat =
          d.nextId.toNat + 1 := toNat_add_one hlt
      have hids : ∀ event', (d.perform grow (.subscribe event handler)).ids event' =
          d.ids event' ++ if event = event' then [d.nextId + 1] else [] := by
        intro event'
        by_cases hevent : event = event'
        · subst hevent
          rw [ids, d.vector_subscribe_self, elements_emplaceBack, List.map_append, if_pos rfl]
          rfl
        · rw [ids, d.vector_subscribe_of_ne grow event' handler hevent, if_neg hevent,
            List.append_nil]
          rfl
      -- the new id is greater than the others
      have hnew : ∀ event', d.nextId + 1 ∉ d.ids event' := by
        intro event' hmem
        have hle := h.id_le event' _ hmem
        rw [toNat_add_one hlt] at hle
        omega
      constructor
      · intro event'
        rw [hids]
        split
        · exact (h.nodup event').append (List.nodup_singleton _)
            (List.disjoint_singleton.mpr (hnew event'))
        · rw [List.append_nil]
          exact h.nodup event'
      · intro event' id hid
        rw [hids] at hid
        rw [hnext]
        rcases List.mem_append.mp hid with hold | hid
        · exact Nat.le_succ_of_le (h.id_le event' id hold)
        · split at hid
          · rw [List.mem_singleton.mp hid, toNat_add_one hlt]
          · exact absurd hid List.not_mem_nil

/-- A call takes at most one id. -/
theorem nextId_perform_le (call : HandlerCall Event Handler) (hlt : d.nextId.toNat + 1 < 2 ^ 64) :
    (d.perform grow call).nextId.toNat ≤ d.nextId.toNat + 1 := by
  cases call with
  | subscribe event handler => exact (toNat_add_one hlt).le
  | unsubscribe id => exact Nat.le_succ _

/-- After fewer than `2 ^ 64` calls, the ids of an event are different. -/
theorem Numbered.foldl {calls : List (HandlerCall Event Handler)} (h : d.Numbered)
    (hlt : d.nextId.toNat + calls.length < 2 ^ 64) :
    (calls.foldl (VectorDispatcher.perform grow) d).Numbered := by
  induction calls generalizing d with
  | nil => exact h
  | cons call calls ih =>
      rw [List.length_cons] at hlt
      have hnext : (d.perform grow call).nextId.toNat ≤ d.nextId.toNat + 1 :=
        nextId_perform_le call (by omega)
      exact ih (h.perform call (by omega)) (by omega)

/-! ### The dispatcher of lists -/

section Refines

variable {Argument World : Type*} (act : Handler → Argument → World → World)

/-- `EventDispatcher` has the same ids, and in its lists what the vectors hold, where `act` is what
a handler does outside the dispatcher. -/
structure Refines (d : VectorDispatcher Event Handler)
    (e : EventDispatcher (fun _ : Event => Argument) World) : Prop where
  nextId_eq : e.nextId = d.nextId
  registered_eq : ∀ event, e.registered event =
    (d.vector event).elements.map fun entry => (entry.1, act entry.2)

omit [DecidableEq Event] in
theorem refines_new : Refines act (⟨fun _ => none, 0⟩ : VectorDispatcher Event Handler) .new :=
  ⟨rfl, fun _ => rfl⟩

/-- A call on the dispatcher of lists. -/
def performOn (e : EventDispatcher (fun _ : Event => Argument) World) :
    HandlerCall Event Handler → EventDispatcher (fun _ : Event => Argument) World
  | .subscribe event handler => (e.subscribe event (act handler)).1
  | .unsubscribe id => e.unsubscribe id

variable {act} {e : EventDispatcher (fun _ : Event => Argument) World}

/-- A call does the same to both. -/
theorem Refines.perform (h : d.Refines act e) (call : HandlerCall Event Handler) :
    (d.perform grow call).Refines act (performOn act e call) := by
  cases call with
  | subscribe event handler =>
      refine ⟨congrArg (· + 1) h.nextId_eq, fun event' => ?_⟩
      by_cases hevent : event = event'
      · subst hevent
        rw [performOn, e.registered_subscribe_self, d.vector_subscribe_self, elements_emplaceBack,
          List.map_append, h.registered_eq, h.nextId_eq]
        rfl
      · rw [performOn, e.registered_subscribe_of_ne _ (Ne.symm hevent),
          d.vector_subscribe_of_ne grow event' handler hevent, h.registered_eq]
  | unsubscribe id =>
      refine ⟨h.nextId_eq, fun event => ?_⟩
      rw [performOn, e.registered_unsubscribe, d.vector_unsubscribe, h.registered_eq,
        List.filter_map]
      -- the ids that are kept are those that are not erased
      have hkept : ((fun entry : UInt64 × (Argument → World → World) => decide (entry.1 ≠ id)) ∘
          fun entry : UInt64 × Handler => (entry.1, act entry.2)) =
            fun entry => !decide (entry.1 = id) := by
        funext entry
        exact decide_not
      rw [hkept]
      rfl

/-- So do the calls of a handler. -/
theorem Refines.foldl (h : d.Refines act e) (calls : List (HandlerCall Event Handler)) :
    (calls.foldl (VectorDispatcher.perform grow) d).Refines act
      (calls.foldl (performOn act) e) := by
  induction calls generalizing d e with
  | nil => exact h
  | cons call calls ih => exact ih (h.perform call)

end Refines

end VectorDispatcher

section Calls

variable {Event Handler : Type*} [DecidableEq Event] {grow : ℕ → ℕ} {event : Event} {r : Range}
  {d : VectorDispatcher Event Handler}

/-- The call leaves the elements in the range alone: it does not subscribe to the event when its
vector is full, and does not unsubscribe an id in the range. -/
def HandlerCall.Harmless (event : Event) (r : Range) (d : VectorDispatcher Event Handler) :
    HandlerCall Event Handler → Prop
  | .subscribe event' _ =>
      event' = event → (d.vector event).elements.length < (d.vector event).capacity
  | .unsubscribe id => id ∉ ((d.vector event).elements.take r.last).map Prod.fst

instance (call : HandlerCall Event Handler) : Decidable (call.Harmless event r d) :=
  match call with
  | .subscribe event' _ => inferInstanceAs (Decidable (event' = event → _ < _))
  | .unsubscribe id => inferInstanceAs (Decidable (id ∉ List.map Prod.fst _))

/-- No call makes the range valid again. -/
theorem valid_of_perform {call : HandlerCall Event Handler}
    (h : r.Valid ((d.perform grow call).vector event)) : r.Valid (d.vector event) := by
  cases call with
  | subscribe event' handler =>
      by_cases hevent : event' = event
      · subst hevent
        rw [d.vector_subscribe_self] at h
        exact h.of_emplaceBack
      · rwa [d.vector_subscribe_of_ne grow event handler hevent] at h
  | unsubscribe id =>
      rw [d.vector_unsubscribe] at h
      exact h.of_eraseIf

/-- A range that is not empty stays valid iff the call leaves it alone. -/
theorem valid_perform_iff {call : HandlerCall Event Handler} (h : r.Valid (d.vector event))
    (hpos : 0 < r.last) :
    r.Valid ((d.perform grow call).vector event) ↔ call.Harmless event r d := by
  cases call with
  | subscribe event' handler =>
      by_cases hevent : event' = event
      · subst hevent
        rw [d.vector_subscribe_self, valid_emplaceBack_iff h hpos]
        exact ⟨fun hroom _ => hroom, fun hroom => hroom rfl⟩
      · rw [d.vector_subscribe_of_ne grow event handler hevent]
        exact ⟨fun _ heq => absurd heq hevent, fun _ => h⟩
  | unsubscribe id =>
      rw [d.vector_unsubscribe, valid_eraseIf_iff h]
      simp only [HandlerCall.Harmless, List.mem_map, not_exists, not_and, decide_eq_false_iff_not]

/-- A call after which the range is valid has left its elements alone. -/
theorem elements_perform {call : HandlerCall Event Handler} (hpos : 0 < r.last)
    (h : r.Valid ((d.perform grow call).vector event)) :
    ((d.perform grow call).vector event).storage = (d.vector event).storage ∧
      ((d.perform grow call).vector event).elements.take r.last =
        (d.vector event).elements.take r.last := by
  cases call with
  | subscribe event' handler =>
      by_cases hevent : event' = event
      · subst hevent
        rw [d.vector_subscribe_self] at h ⊢
        exact ⟨h.storage_emplaceBack hpos, h.of_emplaceBack.take_emplaceBack⟩
      · rw [d.vector_subscribe_of_ne grow event handler hevent]
        exact ⟨rfl, rfl⟩
  | unsubscribe id =>
      rw [d.vector_unsubscribe] at h ⊢
      exact ⟨rfl, h.take_eraseIf⟩

/-- The calls that a handler makes, as steps. -/
def callStep (grow : ℕ → ℕ) (d : VectorDispatcher Event Handler)
    (call : HandlerCall Event Handler) : Option (VectorDispatcher Event Handler) :=
  some (d.perform grow call)

/-- The calls of a handler leave the range alone. -/
def HarmlessCalls (grow : ℕ → ℕ) (event : Event) (r : Range) (d : VectorDispatcher Event Handler)
    (calls : List (HandlerCall Event Handler)) : Prop :=
  EachStep (callStep grow) (fun d call => call.Harmless event r d) d calls

instance (calls : List (HandlerCall Event Handler)) :
    Decidable (HarmlessCalls grow event r d calls) :=
  decidableEachStep d calls

theorem valid_of_foldl {calls : List (HandlerCall Event Handler)}
    (h : r.Valid ((calls.foldl (VectorDispatcher.perform grow) d).vector event)) :
    r.Valid (d.vector event) := by
  induction calls generalizing d with
  | nil => exact h
  | cons call calls ih => exact valid_of_perform (ih h)

/-- A range that is not empty stays valid iff each of the calls leaves it alone. -/
theorem valid_foldl_iff {calls : List (HandlerCall Event Handler)} (h : r.Valid (d.vector event))
    (hpos : 0 < r.last) :
    r.Valid ((calls.foldl (VectorDispatcher.perform grow) d).vector event) ↔
      HarmlessCalls grow event r d calls := by
  induction calls generalizing d with
  | nil => exact ⟨fun _ => trivial, fun _ => h⟩
  | cons call calls ih =>
      constructor
      · intro hvalid
        have hnext : r.Valid ((d.perform grow call).vector event) := valid_of_foldl hvalid
        intro t ht
        obtain rfl := Option.some.inj ht
        exact ⟨(valid_perform_iff h hpos).mp hnext, (ih hnext).mp hvalid⟩
      · intro hcalls
        obtain ⟨hcall, hrest⟩ := hcalls _ rfl
        exact (ih ((valid_perform_iff h hpos).mpr hcall)).mpr hrest

theorem elements_foldl {calls : List (HandlerCall Event Handler)} (hpos : 0 < r.last)
    (h : r.Valid ((calls.foldl (VectorDispatcher.perform grow) d).vector event)) :
    ((calls.foldl (VectorDispatcher.perform grow) d).vector event).storage =
        (d.vector event).storage ∧
      ((calls.foldl (VectorDispatcher.perform grow) d).vector event).elements.take r.last =
        (d.vector event).elements.take r.last := by
  induction calls generalizing d with
  | nil => exact ⟨rfl, rfl⟩
  | cons call calls ih =>
      obtain ⟨hstorage, htake⟩ := ih h
      obtain ⟨hstorage', htake'⟩ := elements_perform hpos (valid_of_foldl h)
      exact ⟨hstorage.trans hstorage', htake.trans htake'⟩

end Calls

/-! ## The loop -/

/-- `publish` between two calls of handlers. -/
structure Publishing (Event Handler World : Type*) where
  dispatcher : VectorDispatcher Event Handler
  /-- Everything outside the dispatcher. -/
  world : World
  /-- `begin()` and `end()`, which the loop obtains once. -/
  range : Range
  /-- The position of the iterator. -/
  it : ℕ
  /-- The ids of the handlers that have been called, in order. -/
  called : List UInt64

namespace Publishing

variable {Event Handler World Argument : Type*} [DecidableEq Event]

/-- `publish` before the first iteration. -/
def start (event : Event) (d : VectorDispatcher Event Handler) (world : World) :
    Publishing Event Handler World where
  dispatcher := d.watch event
  world
  range := (d.vector event).watch.range
  it := 0
  called := []

section Defs

variable (grow : ℕ → ℕ) (event : Event)
  (call : Handler → Argument → World → World × List (HandlerCall Event Handler))
  (argument : Argument) (p : Publishing Event Handler World)

/-- `*it`; `none` is an element of storage that has been freed, or one behind the last. -/
def dereference : Option (UInt64 × Handler) :=
  if (p.dispatcher.vector event).storage = p.range.storage then
    (p.dispatcher.vector event).elements[p.it]?
  else none

/-- The handler is called and does what it does, and the iterator is incremented. -/
def invoke (entry : UInt64 × Handler) : Publishing Event Handler World :=
  let r := call entry.2 argument p.world
  { p with
    dispatcher := r.2.foldl (VectorDispatcher.perform grow) p.dispatcher
    world := r.1
    it := p.it + 1
    called := p.called ++ [entry.1] }

/-- One iteration of `for (auto& handler : list->handlers) handler.second(argument)`; `none` is a
loop that has come to its end, or undefined behaviour. -/
def step (_ : Unit) : Option (Publishing Event Handler World) :=
  if p.it < p.range.last then (dereference event p).map (invoke grow call argument p) else none

/-- If the loop goes on, then over the elements it began with. -/
def Intact : Prop := p.it < p.range.last → p.range.Valid (p.dispatcher.vector event)

/-- Unless it is the last one, the handler that is called next leaves the elements alone that the
loop began with. -/
def LeavesAlone : Prop :=
  p.it + 1 < p.range.last → ∀ entry, dereference event p = some entry →
    HarmlessCalls grow event p.range p.dispatcher (call entry.2 argument p.world).2

instance : Decidable (p.LeavesAlone grow event call argument) :=
  match hentry : dereference event p with
  | none => isTrue fun _ _ h => absurd (hentry.symm.trans h) (Option.some_ne_none _).symm
  | some entry =>
      decidable_of_iff (p.it + 1 < p.range.last →
          HarmlessCalls grow event p.range p.dispatcher (call entry.2 argument p.world).2)
        ⟨fun h hnext _ hother => Option.some.inj (hentry.symm.trans hother) ▸ h hnext,
          fun h hnext => h hnext entry hentry⟩

end Defs

section Loop

variable {grow : ℕ → ℕ} {event : Event}
  {call : Handler → Argument → World → World × List (HandlerCall Event Handler)}
  {argument : Argument} {d : VectorDispatcher Event Handler} {world : World}
  {p q : Publishing Event Handler World}

/-- What an iteration does. -/
theorem step_cases (h : p.step grow event call argument () = some q) :
    p.it < p.range.last ∧ ∃ entry, p.dereference event = some entry ∧
      q = p.invoke grow call argument entry := by
  rw [step, Option.ite_none_right_eq_some] at h
  obtain ⟨hlt, h⟩ := h
  obtain ⟨entry, hentry, rfl⟩ := Option.map_eq_some_iff.mp h
  exact ⟨hlt, entry, hentry, rfl⟩

/-- The invariant: the handlers in front of the iterator have been called, and the others are still
where they were. -/
structure Inv (event : Event)
    (call : Handler → Argument → World → World × List (HandlerCall Event Handler))
    (argument : Argument) (d : VectorDispatcher Event Handler) (world : World)
    (p : Publishing Event Handler World) : Prop where
  last_eq : p.range.last = (d.vector event).elements.length
  it_le : p.it ≤ p.range.last
  called_eq : p.called = (d.ids event).take p.it
  world_eq : p.world = ((d.vector event).elements.take p.it).foldl
    (fun world entry => (call entry.2 argument world).1) world
  valid : p.Intact event
  storage_eq : p.it < p.range.last →
    (p.dispatcher.vector event).storage = p.range.storage
  take_eq : p.it < p.range.last →
    (p.dispatcher.vector event).elements.take p.range.last = (d.vector event).elements

theorem inv_start : Inv event call argument d world (start event d world) where
  last_eq := rfl
  it_le := Nat.zero_le _
  called_eq := rfl
  world_eq := rfl
  valid _ := by
    rw [start, VectorDispatcher.vector_watch]
    exact valid_range_watch _
  storage_eq _ := by
    rw [start, VectorDispatcher.vector_watch]
    rfl
  take_eq _ := by
    rw [start, VectorDispatcher.vector_watch]
    exact List.take_length

omit [DecidableEq Event] in
/-- The iterator refers to the handler that was subscribed at its position. -/
theorem Inv.dereference_eq (h : Inv event call argument d world p) (hlt : p.it < p.range.last) :
    p.dereference event = (d.vector event).elements[p.it]? := by
  rw [dereference, if_pos (h.storage_eq hlt), ← h.take_eq hlt, List.getElem?_take_of_lt hlt]

/-- Until its end the loop has a handler to call. -/
theorem Inv.exists_step (h : Inv event call argument d world p) (hlt : p.it < p.range.last) :
    ∃ q, p.step grow event call argument () = some q := by
  have hidx : p.it < (d.vector event).elements.length := h.last_eq ▸ hlt
  have hentry := h.dereference_eq hlt
  rw [List.getElem?_eq_getElem hidx] at hentry
  exact ⟨p.invoke grow call argument _, by rw [step, if_pos hlt, hentry, Option.map_some]⟩

/-- An iteration leaves the loop intact iff its handler leaves the elements alone. -/
theorem Inv.intact_step_iff (h : Inv event call argument d world p)
    (hstep : p.step grow event call argument () = some q) :
    q.Intact event ↔ p.LeavesAlone grow event call argument := by
  obtain ⟨hlt, entry, hentry, rfl⟩ := step_cases hstep
  have hpos : 0 < p.range.last := Nat.zero_lt_of_lt hlt
  have hvalid : (p.invoke grow call argument entry).range.Valid
      ((p.invoke grow call argument entry).dispatcher.vector event) ↔
        HarmlessCalls grow event p.range p.dispatcher (call entry.2 argument p.world).2 :=
    valid_foldl_iff (h.valid hlt) hpos
  constructor
  · intro hintact hnext other hother
    obtain rfl := Option.some.inj (hentry.symm.trans hother)
    exact hvalid.mp (hintact hnext)
  · intro hleaves hnext
    exact hvalid.mpr (hleaves hnext entry hentry)

theorem inv_step (h : Inv event call argument d world p)
    (hleaves : p.LeavesAlone grow event call argument)
    (hstep : p.step grow event call argument () = some q) :
    Inv event call argument d world q := by
  have hintact : q.Intact event := (h.intact_step_iff hstep).mpr hleaves
  obtain ⟨hlt, entry, hentry, rfl⟩ := step_cases hstep
  have hpos : 0 < p.range.last := Nat.zero_lt_of_lt hlt
  rw [h.dereference_eq hlt] at hentry
  obtain ⟨hidx, rfl⟩ := List.getElem?_eq_some_iff.mp hentry
  refine ⟨h.last_eq, hlt, ?_, ?_, hintact, fun hnext => ?_, fun hnext => ?_⟩
  -- the handler at the iterator is called behind those in front of it
  · rw [invoke, h.called_eq, VectorDispatcher.ids, List.take_add_one, List.getElem?_map,
      List.getElem?_eq_getElem hidx]
    rfl
  · rw [invoke, h.world_eq, List.take_add_one, List.getElem?_eq_getElem hidx, List.foldl_append]
    rfl
  · exact (elements_foldl hpos (hintact hnext)).1.trans (h.storage_eq hlt)
  · exact (elements_foldl hpos (hintact hnext)).2.trans (h.take_eq hlt)

/-- A loop whose handlers leave its elements alone does not stop before its end. -/
theorem exists_run (h : Inv event call argument d world p) {n : ℕ}
    (hn : p.it + n ≤ p.range.last)
    (hleaves : EachStep (step grow event call argument)
      (fun p _ => p.LeavesAlone grow event call argument) p (List.replicate n ())) :
    ∃ q, run (step grow event call argument) p (List.replicate n ()) = some q ∧
      Inv event call argument d world q ∧ q.it = p.it + n := by
  induction n generalizing p with
  | zero => exact ⟨p, rfl, h, rfl⟩
  | succ n ih =>
      -- the loop has a handler to call, which leaves the others alone
      have hlt : p.it < p.range.last := by omega
      obtain ⟨q, hq⟩ : ∃ q, p.step grow event call argument () = some q := h.exists_step hlt
      obtain ⟨halone, hrest⟩ := hleaves q hq
      have hinv : Inv event call argument d world q := inv_step h halone hq
      have hit : q.it = p.it + 1 ∧ q.range = p.range := by
        obtain ⟨-, entry, -, rfl⟩ := step_cases hq
        exact ⟨rfl, rfl⟩
      obtain ⟨t, ht, hinv', hit'⟩ := ih hinv (by rw [hit.1, hit.2]; omega) hrest
      refine ⟨t, ?_, hinv', by rw [hit', hit.1]; omega⟩
      rw [List.replicate_succ, run_cons, hq, Option.bind_some, ht]

end Loop

/-! ## What is tolerated -/

section Tolerates

variable (grow : ℕ → ℕ) (event : Event)
  (call : Handler → Argument → World → World × List (HandlerCall Event Handler))
  (argument : Argument) (d : VectorDispatcher Event Handler) (world : World)

/-- One iteration for each handler that is subscribed. -/
def iterations : List Unit := List.replicate (d.vector event).elements.length ()

/-- The loop never goes on over a vector that was reallocated or shifted, and it comes to its end
and has then called once each handler that was subscribed and not unsubscribed before its turn. -/
structure Tolerates : Prop where
  intact : Always (step grow event call argument) (fun p => p.Intact event) (start event d world)
    (iterations event d)
  calledOnce : ∃ p,
    run (step grow event call argument) (start event d world) (iterations event d) = some p ∧
    ∀ (k : ℕ) (entry : UInt64 × Handler), (d.vector event).elements[k]? = some entry →
      (∀ q, run (step grow event call argument) (start event d world) (List.replicate k ()) =
        some q → entry.1 ∈ q.dispatcher.ids event) →
      p.called.count entry.1 = 1

/-- Whenever a handler is called that is followed by another one, it leaves the elements alone that
the loop began with. -/
def Tolerable : Prop :=
  EachStep (step grow event call argument) (fun p _ => p.LeavesAlone grow event call argument)
    (start event d world) (iterations event d)

instance : Decidable (Tolerable grow event call argument d world) := decidableEachStep _ _

variable {grow event call argument d world}

/-- The whole loop, where its handlers leave its elements alone. -/
theorem Tolerable.exists_run (h : Tolerable grow event call argument d world) :
    ∃ p, run (step grow event call argument) (start event d world) (iterations event d) = some p ∧
      p.called = d.ids event ∧
      p.world = (d.vector event).elements.foldl
        (fun world entry => (call entry.2 argument world).1) world := by
  have hlast : (start event d world).range.last = (d.vector event).elements.length := rfl
  obtain ⟨p, hp, hinv, hit⟩ := Publishing.exists_run inv_start
    (by rw [hlast]; exact Nat.le_of_eq (Nat.zero_add _)) h
  have hend : p.it = (d.vector event).elements.length := hit.trans (Nat.zero_add _)
  refine ⟨p, hp, ?_, ?_⟩
  · rw [hinv.called_eq, hend, VectorDispatcher.ids, List.take_of_length_le]
    rw [List.length_map]
  · rw [hinv.world_eq, hend, List.take_length]

/-- For every dispatcher and every assignment of handlers: `publish` tolerates what the handlers do
iff none of them that is followed by another one subscribes to the event when its vector is full,
or unsubscribes an id that was subscribed when `publish` began. -/
theorem tolerates_iff (hids : (d.ids event).Nodup) :
    Tolerates grow event call argument d world ↔
      Tolerable grow event call argument d world := by
  have hstep : ∀ p (e : Unit) q, Inv event call argument d world p →
      p.LeavesAlone grow event call argument → p.step grow event call argument e = some q →
      Inv event call argument d world q :=
    fun _ _ _ hinv hleaves hq => inv_step hinv hleaves hq
  constructor
  · intro h
    -- a loop that is intact after an iteration was left alone by the handler it called there
    exact eachStep_of_always hstep
      (fun _ _ _ hinv hq hintact => (hinv.intact_step_iff hq).mp hintact) inv_start h.intact
  · intro h
    obtain ⟨p, hp, hcalled, -⟩ := h.exists_run
    refine ⟨?_, p, hp, fun k entry hentry _ => ?_⟩
    · exact always_of_eachStep hstep (fun _ hinv => hinv.valid) inv_start h
    -- all handlers were called, and no id is there twice
    · rw [hcalled]
      apply List.count_eq_one_of_mem hids
      exact List.mem_map.mpr ⟨entry, List.mem_of_getElem? hentry, rfl⟩

/-- The first of two handlers subscribes a third one, for which the vector has room, and resets its
guard again; the second one resets its own guard. -/
theorem tolerates_iff_room :
    let call : ℕ → Unit → List ℕ → List ℕ × List (HandlerCall Unit ℕ) := fun handler _ world =>
      (world ++ [handler], match handler with
        | 0 => [.subscribe () 2, .unsubscribe 3]
        | _ => [.unsubscribe 2])
    let d : VectorDispatcher Unit ℕ :=
      ⟨fun _ => some ⟨[(1, 0), (2, 1)], 4, 1, 0, by decide, by decide⟩, 2⟩
    Tolerates (2 * ·) () call () d [] := by
  intro call d
  exact (tolerates_iff (by decide)).mpr (by decide)

/-- Three handlers of which the first resets its own guard: the second is not called, and the third
iteration is one behind the last element. Two handlers in a full vector of which the first
subscribes another: the second iteration is one over storage that has been freed. -/
theorem tolerates_fails :
    let call : ℕ → Unit → List ℕ → List ℕ × List (HandlerCall Unit ℕ) := fun handler _ world =>
      (world ++ [handler], match handler with
        | 0 => [.unsubscribe 1]
        | 1 => [.subscribe () 2]
        | _ => [])
    let three : VectorDispatcher Unit ℕ :=
      ⟨fun _ => some ⟨[(1, 0), (2, 2), (3, 2)], 4, 2, 0, by decide, by decide⟩, 3⟩
    let two : VectorDispatcher Unit ℕ :=
      ⟨fun _ => some ⟨[(1, 1), (2, 2)], 2, 1, 0, by decide, by decide⟩, 2⟩
    ((run (step (2 * ·) () call ()) (start () three []) [(), ()]).map Publishing.called =
        some [1, 3] ∧
      (run (step (2 * ·) () call ()) (start () three []) [(), (), ()]).map Publishing.called =
        none ∧
      ¬ Tolerates (2 * ·) () call () three []) ∧
    ((run (step (2 * ·) () call ()) (start () two []) [()]).map Publishing.called = some [1] ∧
      (run (step (2 * ·) () call ()) (start () two []) [(), ()]).map Publishing.called = none ∧
      ¬ Tolerates (2 * ·) () call () two []) := by
  intro call three two
  have hthree : (run (step (2 * ·) () call ()) (start () three [])
      (iterations () three)).map Publishing.called = none := by decide
  have htwo : (run (step (2 * ·) () call ()) (start () two [])
      (iterations () two)).map Publishing.called = none := by decide
  refine ⟨⟨by decide, hthree, fun h => ?_⟩, by decide, htwo, fun h => ?_⟩
  · obtain ⟨p, hp, -⟩ := h.calledOnce
    rw [hp] at hthree
    cases hthree
  · obtain ⟨p, hp, -⟩ := h.calledOnce
    rw [hp] at htwo
    cases htwo

/-! ## Handlers that do not call back -/

/-- Handlers that leave the dispatcher alone are tolerated. -/
theorem tolerable_of_quiet (hquiet : ∀ handler world, (call handler argument world).2 = []) :
    Tolerable grow event call argument d world := by
  refine eachStep_replicate (fun p hnext entry _ => ?_) _ _
  rw [hquiet]
  trivial

/-- What is tolerated has the effect that the handlers would have if they did not call back. -/
theorem publish_eq_of_tolerable (h : Tolerable grow event call argument d world)
    {e : EventDispatcher (fun _ : Event => Argument) World}
    (he : d.Refines (fun handler argument world => (call handler argument world).1) e) :
    ∃ p, run (step grow event call argument) (start event d world) (iterations event d) = some p ∧
      p.world = e.publish event argument world := by
  obtain ⟨p, hp, -, hworld⟩ := h.exists_run
  refine ⟨p, hp, ?_⟩
  rw [hworld, EventDispatcher.publish_eq, he.registered_eq, List.foldl_map]

end Tolerates

end Publishing
