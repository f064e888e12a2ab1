import EspNowOnLinux.Lib.Ownership
import EspNowOnLinux.Lib.StateMachine
import Mathlib.Algebra.Group.Nat.Defs
import Mathlib.Data.List.Nodup

/-!
# The event dispatcher

`event_dispatcher` and `subscription_guard`. An event type is a value of an arbitrary type `Event`
(a `std::type_index`), and a handler is a function of the argument that acts on everything outside
the dispatcher; it does not call back into it.

A run is any list of subscriptions, calls of `unsubscribe` and operations on guards. Next to the
dispatcher and the guards that are alive, its state lists the subscriptions made, and which of them
were explicitly unsubscribed.

## Main results

* `Consistent.release`, `Consistent.transfer`, `Consistent.subscribe`, `Consistent.unsubscribe`: the
  operations restore the invariant;
* `dispatcher_owned`: in every state of every run, the registered subscriptions are those whose id
  is held by a guard and which were not explicitly unsubscribed, and `publish` calls just these.
-/

open Ownership StateMachine

/-- `subscription_guard`. There is one dispatcher, so its pointer is either set or not. -/
structure SubscriptionGuard where
  /-- The pointer `dispatcher` is not `nullptr`. -/
  dispatcher : Bool := false
  id : UInt64 := 0

namespace SubscriptionGuard

/-- The id that the guard will unsubscribe, if there is one. -/
def owned (g : SubscriptionGuard) : Option UInt64 :=
  if g.dispatcher = true ∧ g.id ≠ 0 then some g.id else none

/-- A guard with a dispatcher owns its id, unless this is `0`. -/
theorem owned_of_ne_zero {id : UInt64} (h : id ≠ 0) : owned ⟨true, id⟩ = some id :=
  if_pos ⟨rfl, h⟩

end SubscriptionGuard

/-- `event_dispatcher`. -/
structure EventDispatcher {Event : Type*} (Argument : Event → Type*) (World : Type*) where
  /-- The `handlers` of an event type, once there are any. -/
  subscribers : (event : Event) → Option (List (UInt64 × (Argument event → World → World)))
  nextId : UInt64

namespace EventDispatcher

variable {Event : Type*} {Argument : Event → Type*} {World : Type*}

/-- A dispatcher without subscribers. -/
def new : EventDispatcher Argument World := ⟨fun _ => none, 0⟩

/-- The registered handlers of an event type with their ids. -/
def registered (d : EventDispatcher Argument World) (event : Event) :
    List (UInt64 × (Argument event → World → World)) :=
  (d.subscribers event).getD []

/-- `subscribe<Event>`. -/
def subscribe [DecidableEq Event] (d : EventDispatcher Argument World) (event : Event)
    (func : Argument event → World → World) :
    EventDispatcher Argument World × SubscriptionGuard :=
  let id := d.nextId + 1
  ({ subscribers := Function.update d.subscribers event (some (d.registered event ++ [(id, func)]))
     nextId := id }, ⟨true, id⟩)

/-- `unsubscribe`: every list of handlers removes the id. -/
def unsubscribe (d : EventDispatcher Argument World) (id : UInt64) :
    EventDispatcher Argument World :=
  { d with subscribers := fun event => (d.subscribers event).map (·.filter fun h => h.1 ≠ id) }

/-- `publish<Event>`. -/
def publish (d : EventDispatcher Argument World) (event : Event) (argument : Argument event)
    (world : World) : World :=
  match d.subscribers event with
  | none => world
  | some handlers => handlers.foldl (fun world handler => handler.2 argument world) world

variable (d : EventDispatcher Argument World)

/-- Publishing calls the registered handlers in their order. -/
theorem publish_eq (event : Event) (argument : Argument event) (world : World) :
    d.publish event argument world =
      (d.registered event).foldl (fun world handler => handler.2 argument world) world := by
  unfold publish registered
  cases d.subscribers event <;> rfl

@[simp]
theorem registered_unsubscribe (id : UInt64) (event : Event) :
    (d.unsubscribe id).registered event = (d.registered event).filter fun h => h.1 ≠ id := by
  simp only [registered, unsubscribe]
  cases d.subscribers event <;> rfl

variable [DecidableEq Event]

theorem registered_subscribe_self (event : Event) (func : Argument event → World → World) :
    (d.subscribe event func).1.registered event =
      d.registered event ++ [(d.nextId + 1, func)] := by
  simp [registered, subscribe]

theorem registered_subscribe_of_ne {event event' : Event} (func : Argument event → World → World)
    (h : event' ≠ event) : (d.subscribe event func).1.registered event' = d.registered event' := by
  simp [registered, subscribe, h]

end EventDispatcher

/-! ## Guards -/

namespace SubscriptionGuard

variable {Event : Type*} {Argument : Event → Type*} {World : Type*}

/-- `subscription_guard::reset`. -/
def reset (g : SubscriptionGuard) (d : EventDispatcher Argument World) :
    EventDispatcher Argument World × SubscriptionGuard :=
  if g.dispatcher = true ∧ g.id ≠ 0 then (d.unsubscribe g.id, ⟨false, 0⟩) else (d, g)

/-- The move constructor: the new guard and what is left of `other`. -/
def moveConstruct (other : SubscriptionGuard) : SubscriptionGuard × SubscriptionGuard :=
  (⟨other.dispatcher, other.id⟩, ⟨false, 0⟩)

/-- The assignment of another guard: the dispatcher, the guard, and what is left of `other`. -/
def moveAssign (g other : SubscriptionGuard) (d : EventDispatcher Argument World) :
    EventDispatcher Argument World × SubscriptionGuard × SubscriptionGuard :=
  ((g.reset d).1, ⟨other.dispatcher, other.id⟩, ⟨false, 0⟩)

/-- A guard that has been reset owns nothing. -/
theorem owned_reset (g : SubscriptionGuard) (d : EventDispatcher Argument World) :
    (g.reset d).2.owned = none := by
  by_cases h : g.dispatcher = true ∧ g.id ≠ 0
  · rw [reset, if_pos h]
    rfl
  · rw [reset, if_neg h]
    exact if_neg h

/-- What was registered stays registered unless it is the guard's own. -/
theorem registered_reset (g : SubscriptionGuard) (d : EventDispatcher Argument World)
    (event : Event) :
    (g.reset d).1.registered event =
      (d.registered event).filter fun h => g.owned ≠ some h.1 := by
  by_cases hg : g.dispatcher = true ∧ g.id ≠ 0
  · rw [reset, if_pos hg, EventDispatcher.registered_unsubscribe, owned, if_pos hg]
    refine List.filter_congr fun h _ => ?_
    simp [eq_comm]
  · rw [reset, if_neg hg, owned, if_neg hg]
    simp

theorem nextId_reset (g : SubscriptionGuard) (d : EventDispatcher Argument World) :
    (g.reset d).1.nextId = d.nextId := by
  unfold reset
  split <;> rfl

end SubscriptionGuard

/-- The id after one that is not the last. -/
theorem toNat_add_one {id : UInt64} (h : id.toNat + 1 < 2 ^ 64) :
    (id + 1).toNat = id.toNat + 1 := by
  rw [UInt64.toNat_add]
  exact Nat.mod_eq_of_lt h

/-! ## What is registered -/

/-- A subscription that was made, and whether it was explicitly unsubscribed since. -/
structure Subscription (Handler : Type*) where
  id : UInt64
  handler : Handler
  unsubscribed : Bool

namespace Subscription

variable {Handler Object : Type*}

/-- What `unsubscribe` does to a subscription. -/
def unsubscribe (id : UInt64) (m : Subscription Handler) : Subscription Handler :=
  if m.id = id then { m with unsubscribed := true } else m

/-- How a subscription is registered. -/
def entry (m : Subscription Handler) : UInt64 × Handler := (m.id, m.handler)

/-- Handlers that are chosen by their ids. -/
theorem filter_map_entry (p : UInt64 → Prop) [DecidablePred p] (ms : List (Subscription Handler)) :
    (ms.map entry).filter (fun r => p r.1) = (ms.filter fun m => p m.id).map entry :=
  List.filter_map ..

/-- The id of the subscription is held by a guard and it was not explicitly unsubscribed. -/
def Current (owner : Object → Option UInt64) (m : Subscription Handler) : Prop :=
  m.id ∈ tokens owner ∧ m.unsubscribed = false

noncomputable instance (owner : Object → Option UInt64) (m : Subscription Handler) :
    Decidable (m.Current owner) := Classical.propDecidable _

/-- The current ones of some subscriptions. -/
noncomputable def current (owner : Object → Option UInt64) (ms : List (Subscription Handler)) :
    List (Subscription Handler) :=
  ms.filter fun m => m.Current owner

theorem mem_current {owner : Object → Option UInt64} {ms : List (Subscription Handler)}
    {m : Subscription Handler} : m ∈ current owner ms ↔ m ∈ ms ∧ m.Current owner := by
  simp [current]

theorem current_append (owner : Object → Option UInt64) (ms ms' : List (Subscription Handler)) :
    current owner (ms ++ ms') = current owner ms ++ current owner ms' :=
  List.filter_append ..

theorem current_congr {owner owner' : Object → Option UInt64} {ms : List (Subscription Handler)}
    (h : ∀ m ∈ ms, m.Current owner ↔ m.Current owner') : current owner ms = current owner' ms := by
  refine List.filter_congr fun m hm => ?_
  rw [decide_eq_decide]
  exact h m hm

@[simp]
theorem id_unsubscribe (id : UInt64) (m : Subscription Handler) : (m.unsubscribe id).id = m.id := by
  unfold unsubscribe
  split <;> rfl

@[simp]
theorem entry_unsubscribe (id : UInt64) (m : Subscription Handler) :
    (m.unsubscribe id).entry = m.entry := by
  unfold unsubscribe
  split <;> rfl

theorem current_unsubscribe {owner : Object → Option UInt64} {id : UInt64}
    {m : Subscription Handler} :
    (m.unsubscribe id).Current owner ↔ m.Current owner ∧ m.id ≠ id := by
  rw [Current, Current, id_unsubscribe, unsubscribe]
  by_cases hid : m.id = id
  · simp [hid]
  · simp [hid]

end Subscription

section Consistent

variable {Event : Type*} {Argument : Event → Type*} {World Object : Type*}

/-- The invariant. Ids are numbered from `1` without gaps in the order of the subscriptions, and
what is registered is what is current of the subscriptions made. -/
structure Consistent (d : EventDispatcher Argument World) (owner : Object → Option UInt64)
    (subscriptions : (event : Event) → List (Subscription (Argument event → World → World))) :
    Prop where
  id_pos : ∀ event, ∀ m ∈ subscriptions event, 0 < m.id.toNat
  id_le : ∀ event, ∀ m ∈ subscriptions event, m.id.toNat ≤ d.nextId.toNat
  ids_nodup : ∀ event, ((subscriptions event).map Subscription.id).Nodup
  event_eq : ∀ event event' m m', m ∈ subscriptions event → m' ∈ subscriptions event' →
    m.id = m'.id → event = event'
  exclusive : Exclusive owner
  owned_le : ∀ id ∈ tokens owner, id.toNat ≤ d.nextId.toNat
  registered_eq : ∀ event, d.registered event =
    (Subscription.current owner (subscriptions event)).map Subscription.entry

namespace Consistent

variable {d d' : EventDispatcher Argument World} {owner : Object → Option UInt64}
  {subscriptions : (event : Event) → List (Subscription (Argument event → World → World))}

/-- Without subscriptions nothing is registered. -/
theorem new : Consistent (.new : EventDispatcher Argument World)
    (fun _ : Object => none) (fun _ => []) where
  id_pos _ _ h := absurd h List.not_mem_nil
  id_le _ _ h := absurd h List.not_mem_nil
  ids_nodup _ := List.nodup_nil
  event_eq _ _ _ _ h := absurd h List.not_mem_nil
  exclusive := exclusive_none
  owned_le := by
    rintro id ⟨x, hx⟩
    cases hx
  registered_eq _ := rfl

/-- An id is explicitly unsubscribed. -/
theorem unsubscribe (h : Consistent d owner subscriptions) (id : UInt64) :
    Consistent (d.unsubscribe id) owner
      (fun event => (subscriptions event).map (Subscription.unsubscribe id)) where
  id_pos event m' hm' := by
    obtain ⟨m, hm, rfl⟩ := List.mem_map.mp hm'
    rw [Subscription.id_unsubscribe]
    exact h.id_pos event m hm
  id_le event m' hm' := by
    obtain ⟨m, hm, rfl⟩ := List.mem_map.mp hm'
    rw [Subscription.id_unsubscribe]
    exact h.id_le event m hm
  ids_nodup event := by
    have hids : Subscription.id ∘ Subscription.unsubscribe id =
        (Subscription.id : Subscription (Argument event → World → World) → UInt64) := by
      ext m
      simp
    rw [List.map_map, hids]
    exact h.ids_nodup event
  event_eq event event' n n' hn hn' hid := by
    obtain ⟨m, hm, rfl⟩ := List.mem_map.mp hn
    obtain ⟨m', hm', rfl⟩ := List.mem_map.mp hn'
    rw [Subscription.id_unsubscribe, Subscription.id_unsubscribe] at hid
    exact h.event_eq event event' m m' hm hm' hid
  exclusive := h.exclusive
  owned_le := h.owned_le
  registered_eq event := by
    have hentry : Subscription.entry ∘ Subscription.unsubscribe id = (Subscription.entry :
        Subscription (Argument event → World → World) → _) := by
      ext m : 1
      simp
    rw [EventDispatcher.registered_unsubscribe, h.registered_eq,
      Subscription.filter_map_entry fun i => i ≠ id, Subscription.current, Subscription.current,
      List.filter_filter, List.filter_map, List.map_map, hentry]
    congr 1
    refine List.filter_congr fun m _ => ?_
    have hcurrent : (m.unsubscribe id).Current owner ↔ m.id ≠ id ∧ m.Current owner := by
      rw [Subscription.current_unsubscribe, and_comm]
    simp [hcurrent]

variable [DecidableEq Object]

/-- A guard gives up its id, which is removed from all lists of handlers. -/
theorem release (h : Consistent d owner subscriptions) (x : Object)
    (hnext : d'.nextId = d.nextId) (hregistered : ∀ event, d'.registered event =
      (d.registered event).filter fun r => owner x ≠ some r.1) :
    Consistent d' (Ownership.release owner x) subscriptions where
  id_pos := h.id_pos
  id_le := hnext ▸ h.id_le
  ids_nodup := h.ids_nodup
  event_eq := h.event_eq
  exclusive := h.exclusive.release x
  owned_le id hid := hnext ▸ h.owned_le id ((mem_tokens_release h.exclusive).mp hid).1
  registered_eq event := by
    rw [hregistered, h.registered_eq, Subscription.filter_map_entry fun id => owner x ≠ some id,
      Subscription.current, List.filter_filter]
    congr 1
    refine List.filter_congr fun m _ => ?_
    have hcurrent : m.Current (Ownership.release owner x) ↔
        owner x ≠ some m.id ∧ m.Current owner := by
      rw [Subscription.Current, mem_tokens_release h.exclusive, Subscription.Current]
      tauto
    simp [hcurrent]

/-- A guard hands its id to one that has none. -/
theorem transfer (h : Consistent d owner subscriptions) {x y : Object} (hne : x ≠ y)
    (hx : owner x = none) : Consistent d (Ownership.transfer owner x y) subscriptions where
  id_pos := h.id_pos
  id_le := h.id_le
  ids_nodup := h.ids_nodup
  event_eq := h.event_eq
  exclusive := h.exclusive.transfer hne
  owned_le id hid := h.owned_le id (tokens_transfer hne hx ▸ hid)
  registered_eq event := by
    rw [h.registered_eq]
    congr 1
    refine Subscription.current_congr fun m _ => ?_
    rw [Subscription.Current, Subscription.Current, tokens_transfer hne hx]

/-- A new subscription gets the next id, which no guard holds yet. -/
theorem subscribe [DecidableEq Event] (h : Consistent d owner subscriptions) (event : Event)
    (func : Argument event → World → World) {x : Object} (hx : owner x = none)
    (hlt : d.nextId.toNat + 1 < 2 ^ 64) :
    Consistent (d.subscribe event func).1 (acquire owner x (d.nextId + 1))
      (Function.update subscriptions event
        (subscriptions event ++ [⟨d.nextId + 1, func, false⟩])) := by
  have hid : (d.nextId + 1).toNat = d.nextId.toNat + 1 := toNat_add_one hlt
  have hnext : (d.subscribe event func).1.nextId.toNat = d.nextId.toNat + 1 := hid
  -- the id is new
  have hne : ∀ event', ∀ m ∈ subscriptions event', m.id ≠ d.nextId + 1 := by
    intro event' m hm heq
    have hle := h.id_le event' m hm
    rw [heq, hid] at hle
    omega
  have hfree : d.nextId + 1 ∉ tokens owner := by
    intro hmem
    have hle := h.owned_le _ hmem
    rw [hid] at hle
    omega
  have hmem : ∀ event', ∀ m ∈ Function.update subscriptions event
      (subscriptions event ++ [⟨d.nextId + 1, func, false⟩]) event',
      m ∈ subscriptions event' ∨ (event' = event ∧ m.id = d.nextId + 1) := by
    intro event' m hm
    by_cases hevent : event' = event
    · subst hevent
      rw [Function.update_self] at hm
      rcases List.mem_append.mp hm with hm | hm
      · exact Or.inl hm
      · exact Or.inr ⟨rfl, by rw [List.mem_singleton.mp hm]⟩
    · rw [Function.update_of_ne hevent] at hm
      exact Or.inl hm
  have hcurrent : ∀ event', ∀ m ∈ subscriptions event',
      (m.Current (acquire owner x (d.nextId + 1)) ↔ m.Current owner) := by
    intro event' m hm
    rw [Subscription.Current, Subscription.Current, mem_tokens_acquire hx]
    simp [hne event' m hm]
  constructor
  · intro event' m hm
    rcases hmem event' m hm with hold | ⟨-, hnew⟩
    · exact h.id_pos event' m hold
    · rw [hnew, hid]
      omega
  · intro event' m hm
    rcases hmem event' m hm with hold | ⟨-, hnew⟩
    · have hle := h.id_le event' m hold
      omega
    · rw [hnew, hid, hnext]
  · intro event'
    by_cases hevent : event' = event
    · subst hevent
      rw [Function.update_self, List.map_append, List.map_singleton, List.nodup_append]
      refine ⟨h.ids_nodup event', List.nodup_singleton _, ?_⟩
      rintro _ hold _ hnew rfl
      obtain ⟨m, hm, hmid⟩ := List.mem_map.mp hold
      exact hne event' m hm (hmid.trans (List.mem_singleton.mp hnew))
    · rw [Function.update_of_ne hevent]
      exact h.ids_nodup event'
  · intro event₁ event₂ m m' hm hm' heq
    rcases hmem event₁ m hm with hold | ⟨rfl, hnew⟩
    · rcases hmem event₂ m' hm' with hold' | ⟨rfl, hnew'⟩
      · exact h.event_eq event₁ event₂ m m' hold hold' heq
      · exact absurd (heq.trans hnew') (hne event₁ m hold)
    · rcases hmem event₂ m' hm' with hold' | ⟨rfl, -⟩
      · exact absurd (heq.symm.trans hnew) (hne event₂ m' hold')
      · rfl
  · exact h.exclusive.acquire x hfree
  · intro id hid'
    rcases (mem_tokens_acquire hx).mp hid' with rfl | hold
    · rw [hid, hnext]
    · have hle := h.owned_le id hold
      omega
  · intro event'
    by_cases hevent : event' = event
    · subst hevent
      have hnew : (⟨d.nextId + 1, func, false⟩ : Subscription _).Current
          (acquire owner x (d.nextId + 1)) :=
        ⟨(mem_tokens_acquire hx).mpr (Or.inl rfl), rfl⟩
      rw [EventDispatcher.registered_subscribe_self, Function.update_self,
        Subscription.current_append, List.map_append, h.registered_eq,
        Subscription.current_congr (hcurrent event')]
      congr 1
      simp [Subscription.current, hnew, Subscription.entry]
    · rw [EventDispatcher.registered_subscribe_of_ne d func hevent,
        Function.update_of_ne hevent, h.registered_eq,
        Subscription.current_congr (hcurrent event')]

end Consistent

end Consistent

/-! ## Whole runs -/

/-- The dispatcher, the guards that are alive, each at the object that it is, and the subscriptions
that were made for each event type, in order. -/
structure DispatcherState {Event : Type*} (Object : Type*) (Argument : Event → Type*)
    (World : Type*) where
  dispatcher : EventDispatcher Argument World
  guards : Object → Option SubscriptionGuard
  subscriptions : (event : Event) → List (Subscription (Argument event → World → World))

namespace DispatcherState

variable {Event : Type*} {Object : Type*} {Argument : Event → Type*} {World : Type*}

/-- What a program can do with the dispatcher and its guards. -/
inductive Operation (Object : Type*) (Argument : Event → Type*) (World : Type*)
  /-- `subscribe<Event>`, whose result is the new guard `object`. -/
  | subscribe (event : Event) (func : Argument event → World → World) (object : Object)
  /-- `unsubscribe` with any id. -/
  | unsubscribe (id : UInt64)
  /-- A guard is constructed without arguments. -/
  | construct (object : Object)
  /-- The guard `object` is constructed from `other`. -/
  | moveConstruct (object other : Object)
  /-- `other` is moved to the guard `object`. -/
  | moveAssign (object other : Object)
  | reset (object : Object)
  /-- The destructor. -/
  | destroy (object : Object)

/-- A subscription is made. -/
def Operation.Subscribes : Operation Object Argument World → Prop
  | .subscribe .. => True
  | _ => False

instance : DecidablePred fun operation : Operation Object Argument World => operation.Subscribes
  | .subscribe .. => inferInstanceAs (Decidable True)
  | .unsubscribe _ | .construct _ | .moveConstruct .. | .moveAssign .. | .reset _ | .destroy _ =>
      inferInstanceAs (Decidable False)

/-- A new dispatcher. -/
def start : DispatcherState Object Argument World := ⟨.new, fun _ => none, fun _ => []⟩

/-- The id that each guard holds. -/
def owner (s : DispatcherState Object Argument World) (object : Object) : Option UInt64 :=
  (s.guards object).bind SubscriptionGuard.owned

theorem owner_eq (s : DispatcherState Object Argument World) :
    s.owner = fun object => (s.guards object).bind SubscriptionGuard.owned := rfl

/-- Whoever subscribes gets a guard with an id that is not `0` and has never been given out, and the
handler is registered behind those of the same event. -/
structure Subscribable [DecidableEq Event] (s : DispatcherState Object Argument World)
    (event : Event) (func : Argument event → World → World) : Prop where
  owned_eq : (s.dispatcher.subscribe event func).2.owned =
    some (s.dispatcher.subscribe event func).2.id
  id_ne_zero : (s.dispatcher.subscribe event func).2.id ≠ 0
  fresh : ∀ event', ∀ m ∈ s.subscriptions event', m.id ≠ (s.dispatcher.subscribe event func).2.id
  free : ∀ object, s.owner object ≠ some (s.dispatcher.subscribe event func).2.id
  registered_eq : (s.dispatcher.subscribe event func).1.registered event =
    s.dispatcher.registered event ++ [((s.dispatcher.subscribe event func).2.id, func)]
  registered_of_ne : ∀ event' ≠ event, (s.dispatcher.subscribe event func).1.registered event' =
    s.dispatcher.registered event'

/-- The registered ids are non-zero and pairwise distinct across all event types, each of them is
held by one guard, and a subscription is registered iff its id is held by a guard and was not
explicitly unsubscribed. So publishing calls the handlers of just these, in the order of
subscription. As long as there are ids, one can subscribe. -/
structure Owned [DecidableEq Event] (s : DispatcherState Object Argument World) : Prop where
  id_ne_zero : ∀ event, ∀ r ∈ s.dispatcher.registered event, r.1 ≠ 0
  ids_nodup : ∀ event, ((s.dispatcher.registered event).map Prod.fst).Nodup
  event_eq : ∀ event event' r r', r ∈ s.dispatcher.registered event →
    r' ∈ s.dispatcher.registered event' → r.1 = r'.1 → event = event'
  held : ∀ event, ∀ r ∈ s.dispatcher.registered event, ∃! object, s.owner object = some r.1
  registered_iff : ∀ event, ∀ m ∈ s.subscriptions event,
    m.id ∈ (s.dispatcher.registered event).map Prod.fst ↔
      (∃ object, s.owner object = some m.id) ∧ m.unsubscribed = false
  publish_eq : ∀ event argument world, s.dispatcher.publish event argument world =
    (Subscription.current s.owner (s.subscriptions event)).foldl
      (fun world m => m.handler argument world) world
  subscribes : s.dispatcher.nextId.toNat + 1 < 2 ^ 64 → ∀ event func, s.Subscribable event func

/-- The invariant of the runs. -/
def Inv (s : DispatcherState Object Argument World) : Prop :=
  Consistent s.dispatcher s.owner s.subscriptions

variable {s t : DispatcherState Object Argument World} {op : Operation Object Argument World}

/-- The next id is larger than those that have been given out. -/
theorem Inv.subscribable [DecidableEq Event] (h : s.Inv)
    (hlt : s.dispatcher.nextId.toNat + 1 < 2 ^ 64) (event : Event)
    (func : Argument event → World → World) : s.Subscribable event func := by
  have hid : (s.dispatcher.nextId + 1).toNat = s.dispatcher.nextId.toNat + 1 := toNat_add_one hlt
  have hlarger {id : UInt64} (hle : id.toNat ≤ s.dispatcher.nextId.toNat) :
      id ≠ s.dispatcher.nextId + 1 := by
    rintro rfl
    omega
  have hne : s.dispatcher.nextId + 1 ≠ 0 := (hlarger (Nat.zero_le _)).symm
  exact {
    owned_eq := SubscriptionGuard.owned_of_ne_zero hne
    id_ne_zero := hne
    fresh := fun event' m hm => hlarger (h.id_le event' m hm)
    free := fun object howner => hlarger (h.owned_le _ ⟨object, howner⟩) rfl
    registered_eq := s.dispatcher.registered_subscribe_self event func
    registered_of_ne := fun event' => s.dispatcher.registered_subscribe_of_ne func }

/-- The invariant implies what it is for. -/
theorem Inv.owned [DecidableEq Event] (h : s.Inv) : s.Owned where
  id_ne_zero event r hr := by
    rw [h.registered_eq] at hr
    obtain ⟨m, hm, rfl⟩ := List.mem_map.mp hr
    have hpos := h.id_pos event m (Subscription.mem_current.mp hm).1
    intro hzero
    rw [show m.id = 0 from hzero] at hpos
    exact absurd hpos (by decide)
  ids_nodup event := by
    rw [h.registered_eq, List.map_map]
    exact (h.ids_nodup event).sublist (List.filter_sublist.map _)
  event_eq event event' r r' hr hr' heq := by
    rw [h.registered_eq] at hr hr'
    obtain ⟨m, hm, rfl⟩ := List.mem_map.mp hr
    obtain ⟨m', hm', rfl⟩ := List.mem_map.mp hr'
    exact h.event_eq event event' m m' (Subscription.mem_current.mp hm).1
      (Subscription.mem_current.mp hm').1 heq
  held event r hr := by
    rw [h.registered_eq] at hr
    obtain ⟨m, hm, rfl⟩ := List.mem_map.mp hr
    exact h.exclusive.existsUnique (Subscription.mem_current.mp hm).2.1
  registered_iff event m hm := by
    rw [h.registered_eq, List.map_map]
    constructor
    · intro hmem
      obtain ⟨m', hm', hid⟩ := List.mem_map.mp hmem
      obtain ⟨hm', hcurrent⟩ := Subscription.mem_current.mp hm'
      obtain rfl : m' = m := List.inj_on_of_nodup_map (h.ids_nodup event) hm' hm hid
      exact hcurrent
    · intro hcurrent
      exact List.mem_map.mpr ⟨m, Subscription.mem_current.mpr ⟨hm, hcurrent⟩, rfl⟩
  publish_eq event argument world := by
    rw [EventDispatcher.publish_eq, h.registered_eq, List.foldl_map]
    rfl
  subscribes hlt event func := h.subscribable hlt event func

variable [DecidableEq Object]

/-- Replacing a guard replaces what it holds. -/
theorem owner_update (guards : Object → Option SubscriptionGuard) (object : Object)
    (g : Option SubscriptionGuard) :
    (fun x => (Function.update guards object g x).bind SubscriptionGuard.owned) =
      Function.update (fun x => (guards x).bind SubscriptionGuard.owned) object
        (g.bind SubscriptionGuard.owned) :=
  Function.comp_update (fun g : Option SubscriptionGuard => g.bind SubscriptionGuard.owned) guards
    object g

/-- A guard is reset, and afterwards holds nothing, whether it is still there or not. -/
theorem Inv.reset (h : s.Inv) {object : Object} {g : SubscriptionGuard}
    (hg : s.guards object = some g) (left : Option SubscriptionGuard)
    (hleft : left.bind SubscriptionGuard.owned = none) :
    Inv { s with
      dispatcher := (g.reset s.dispatcher).1
      guards := Function.update s.guards object left } := by
  have howner : s.owner object = g.owned := by rw [owner, hg, Option.bind_some]
  have hreleased := h.release object (g.nextId_reset s.dispatcher) fun event => by
    rw [howner]
    exact g.registered_reset s.dispatcher event
  rw [Inv, owner_eq, owner_update, hleft]
  exact hreleased

/-- A guard takes over what another one holds. -/
theorem Inv.move (h : s.Inv) {object other : Object} {g : SubscriptionGuard}
    (hne : object ≠ other) (hobject : s.owner object = none) (hg : s.guards other = some g) :
    Inv { s with
      guards := Function.update (Function.update s.guards object (some g)) other
        (some ⟨false, 0⟩) } := by
  have howner : s.owner other = g.owned := by rw [owner, hg, Option.bind_some]
  have hmoved := h.transfer hne hobject
  rw [Inv, owner_eq, owner_update, owner_update]
  rw [Ownership.transfer, howner] at hmoved
  exact hmoved

variable [DecidableEq Event]

/-- The state after an operation; `none` is the construction of a guard where there is one, or the
use of a guard where there is none. -/
def step (s : DispatcherState Object Argument World) :
    Operation Object Argument World → Option (DispatcherState Object Argument World)
  | .subscribe event func object =>
      match s.guards object with
      | some _ => none
      | none =>
          let (dispatcher, guard) := s.dispatcher.subscribe event func
          some {
            dispatcher
            guards := Function.update s.guards object (some guard)
            subscriptions := Function.update s.subscriptions event
              (s.subscriptions event ++ [⟨guard.id, func, false⟩]) }
  | .unsubscribe id =>
      some { s with
        dispatcher := s.dispatcher.unsubscribe id
        subscriptions := fun event => (s.subscriptions event).map (Subscription.unsubscribe id) }
  | .construct object =>
      match s.guards object with
      | some _ => none
      | none => some { s with guards := Function.update s.guards object (some {}) }
  | .moveConstruct object other =>
      match s.guards object, s.guards other with
      | none, some g =>
          let (new, left) := g.moveConstruct
          some { s with
            guards := Function.update (Function.update s.guards object (some new)) other
              (some left) }
      | _, _ => none
  | .moveAssign object other =>
      match s.guards object, s.guards other with
      | some g, some g' =>
          -- `this != &other`
          if object ≠ other then
            let (dispatcher, new, left) := g.moveAssign g' s.dispatcher
            some { s with
              dispatcher
              guards := Function.update (Function.update s.guards object (some new)) other
                (some left) }
          else some s
      | _, _ => none
  | .reset object =>
      match s.guards object with
      | some g =>
          let (dispatcher, guard) := g.reset s.dispatcher
          some { s with dispatcher, guards := Function.update s.guards object (some guard) }
      | none => none
  | .destroy object =>
      match s.guards object with
      | some g =>
          some { s with
            dispatcher := (g.reset s.dispatcher).1
            guards := Function.update s.guards object none }
      | none => none

/-- The next id can be represented, if one is needed. -/
def NoOverflow (s : DispatcherState Object Argument World) (op : Operation Object Argument World) :
    Prop :=
  op.Subscribes → s.dispatcher.nextId.toNat + 1 < 2 ^ 64

/-- What an operation can do. -/
theorem step_cases (ht : step s op = some t) :
    (∃ event func object, op = .subscribe event func object ∧ s.guards object = none ∧
        t = {
          dispatcher := (s.dispatcher.subscribe event func).1
          guards := Function.update s.guards object (some (s.dispatcher.subscribe event func).2)
          subscriptions := Function.update s.subscriptions event
            (s.subscriptions event ++
              [⟨(s.dispatcher.subscribe event func).2.id, func, false⟩]) }) ∨
      (∃ id, op = .unsubscribe id ∧
        t = { s with
          dispatcher := s.dispatcher.unsubscribe id
          subscriptions := fun event =>
            (s.subscriptions event).map (Subscription.unsubscribe id) }) ∨
      (∃ object, op = .construct object ∧ s.guards object = none ∧
        t = { s with guards := Function.update s.guards object (some {}) }) ∨
      (∃ object other g, op = .moveConstruct object other ∧ s.guards object = none ∧
        s.guards other = some g ∧
        t = { s with
          guards := Function.update (Function.update s.guards object (some g)) other
            (some ⟨false, 0⟩) }) ∨
      (∃ object other g g', op = .moveAssign object other ∧ s.guards object = some g ∧
        s.guards other = some g' ∧ object ≠ other ∧
        t = { s with
          dispatcher := (g.reset s.dispatcher).1
          guards := Function.update (Function.update s.guards object (some g')) other
            (some ⟨false, 0⟩) }) ∨
      -- a guard that is assigned to itself
      (∃ object, op = .moveAssign object object ∧ t = s) ∨
      ∃ object g left, (op = .reset object ∨ op = .destroy object) ∧ s.guards object = some g ∧
        left.bind SubscriptionGuard.owned = none ∧
        t = { s with
          dispatcher := (g.reset s.dispatcher).1
          guards := Function.update s.guards object left } := by
  cases op with
  | subscribe event func object =>
      simp only [step] at ht
      split at ht
      · cases ht
      · next hobject =>
        exact Or.inl ⟨event, func, object, rfl, hobject, (Option.some.inj ht).symm⟩
  | unsubscribe id => exact Or.inr (Or.inl ⟨id, rfl, (Option.some.inj ht).symm⟩)
  | construct object =>
      simp only [step] at ht
      split at ht
      · cases ht
      · next hobject =>
        exact Or.inr (Or.inr (Or.inl ⟨object, rfl, hobject, (Option.some.inj ht).symm⟩))
  | moveConstruct object other =>
      simp only [step] at ht
      split at ht
      · next g hobject hother =>
        exact Or.inr (Or.inr (Or.inr (Or.inl
          ⟨object, other, g, rfl, hobject, hother, (Option.some.inj ht).symm⟩)))
      · cases ht
  | moveAssign object other =>
      simp only [step] at ht
      split at ht
      · next g g' hobject hother =>
        split at ht
        · next hne =>
          exact Or.inr (Or.inr (Or.inr (Or.inr (Or.inl
            ⟨object, other, g, g', rfl, hobject, hother, hne, (Option.some.inj ht).symm⟩))))
        · next heq =>
          obtain rfl := not_not.mp heq
          exact Or.inr (Or.inr (Or.inr (Or.inr (Or.inr (Or.inl
            ⟨object, rfl, (Option.some.inj ht).symm⟩)))))
      · cases ht
  | reset object =>
      simp only [step] at ht
      split at ht
      · next g hobject =>
        exact Or.inr (Or.inr (Or.inr (Or.inr (Or.inr (Or.inr
          ⟨object, g, some (g.reset s.dispatcher).2, Or.inl rfl, hobject,
            g.owned_reset s.dispatcher, (Option.some.inj ht).symm⟩)))))
      · cases ht
  | destroy object =>
      simp only [step] at ht
      split at ht
      · next g hobject =>
        exact Or.inr (Or.inr (Or.inr (Or.inr (Or.inr (Or.inr
          ⟨object, g, none, Or.inr rfl, hobject, rfl, (Option.some.inj ht).symm⟩)))))
      · cases ht

/-- Every operation restores the invariant. -/
theorem inv_step (h : s.Inv) (hC : NoOverflow s op) (ht : step s op = some t) : t.Inv := by
  rcases step_cases ht with ⟨event, func, object, rfl, hobject, rfl⟩ | ⟨id, rfl, rfl⟩ |
    ⟨object, rfl, hobject, rfl⟩ | ⟨object, other, g, rfl, hobject, hother, rfl⟩ |
    ⟨object, other, g, g', rfl, hobject, hother, hne, rfl⟩ | ⟨object, rfl, rfl⟩ |
    ⟨object, g, left, -, hobject, hleft, rfl⟩
  · have hlt := hC trivial
    have hnone : s.owner object = none := by rw [owner, hobject, Option.bind_none]
    have hid : s.dispatcher.nextId + 1 ≠ 0 := (h.subscribable hlt event func).id_ne_zero
    have hsubscribed := h.subscribe event func hnone hlt
    rw [Inv, owner_eq, owner_update]
    rw [acquire, ← SubscriptionGuard.owned_of_ne_zero hid] at hsubscribed
    exact hsubscribed
  · exact h.unsubscribe id
  -- nobody notices a guard that holds nothing
  · have hnone : s.owner object = none := by rw [owner, hobject, Option.bind_none]
    rw [Inv, owner_eq, owner_update]
    have hsame := release_of_none hnone
    rw [release] at hsame
    have hempty : (some ({} : SubscriptionGuard)).bind SubscriptionGuard.owned = none := rfl
    rw [hempty]
    exact hsame.symm ▸ h
  · have hne : object ≠ other := by
      rintro rfl
      rw [hobject] at hother
      cases hother
    exact h.move hne (by rw [owner, hobject, Option.bind_none]) hother
  -- first the guard is reset, then it takes over what `other` holds
  · have hreset := h.reset hobject (some (g.reset s.dispatcher).2) (g.owned_reset s.dispatcher)
    have hmoved := hreset.move hne
      (by rw [owner_eq, owner_update, Function.update_self]; exact g.owned_reset s.dispatcher)
      ((Function.update_of_ne hne.symm _ _).trans hother)
    rwa [Function.update_idem] at hmoved
  · exact h
  · exact h.reset hobject left hleft

/-- Ids are counted up by subscriptions and by nothing else. -/
theorem nextId_step (hC : NoOverflow s op) (ht : step s op = some t) :
    t.dispatcher.nextId.toNat =
      s.dispatcher.nextId.toNat + if op.Subscribes then 1 else 0 := by
  rcases step_cases ht with ⟨event, func, object, rfl, -, rfl⟩ | ⟨id, rfl, rfl⟩ |
    ⟨object, rfl, -, rfl⟩ | ⟨object, other, g, rfl, -, -, rfl⟩ |
    ⟨object, other, g, g', rfl, -, -, -, rfl⟩ | ⟨object, rfl, rfl⟩ |
    ⟨object, g, left, rfl | rfl, -, -, rfl⟩
  · exact toNat_add_one (hC trivial)
  · rfl
  · rfl
  · rfl
  -- the guard that is assigned to is reset
  · exact congrArg UInt64.toNat (g.nextId_reset s.dispatcher)
  · rfl
  · exact congrArg UInt64.toNat (g.nextId_reset s.dispatcher)
  · exact congrArg UInt64.toNat (g.nextId_reset s.dispatcher)

/-- As long as the subscriptions are fewer than there are ids, no step of a run overflows. -/
theorem eachStep_noOverflow {ops : List (Operation Object Argument World)}
    (h : s.dispatcher.nextId.toNat + ops.countP (fun op => op.Subscribes) < 2 ^ 64) :
    EachStep step NoOverflow s ops := by
  induction ops generalizing s with
  | nil => trivial
  | cons op ops ih =>
      intro t ht
      rw [List.countP_cons] at h
      have hC : NoOverflow s op := by
        intro hsubscribes
        rw [if_pos (decide_eq_true hsubscribes)] at h
        omega
      refine ⟨hC, ih ?_⟩
      rw [nextId_step hC ht]
      simp only [decide_eq_true_eq] at h
      omega

/-- In every run of a program with fewer than `2 ^ 64` subscriptions, whatever it does with its
guards and whatever ids it unsubscribes, the registered subscriptions are in every state those whose
id is held by a guard and which were not explicitly unsubscribed. -/
theorem dispatcher_owned (ops : List (Operation Object Argument World))
    (h : ops.countP (fun op => op.Subscribes) < 2 ^ 64) : Always step Owned start ops := by
  have hcount : (start : DispatcherState Object Argument World).dispatcher.nextId.toNat +
      ops.countP (fun op => op.Subscribes) < 2 ^ 64 := by
    show 0 + _ < _
    omega
  exact always_of_eachStep (fun _ _ _ h hC ht => inv_step h hC ht) (fun _ h => h.owned)
    (Consistent.new : Inv start) (eachStep_noOverflow hcount)

/-- Three subscriptions to two events, one guard moved over the other, and an id that has not
been given out. -/
theorem dispatcher_owned_reassigned :
    let append (tag : ℕ) : ℕ → List (ℕ × ℕ) → List (ℕ × ℕ) := fun x calls => calls ++ [(tag, x)]
    let ops : List (Operation ℕ (fun _ : Bool => ℕ) (List (ℕ × ℕ))) :=
      [.subscribe true (append 1) 0, .subscribe false (append 2) 1, .subscribe false (append 3) 2,
        .unsubscribe 4, .moveAssign 0 1, .moveAssign 0 0, .destroy 1]
    (run step start ops).map (fun s => (s.dispatcher.publish true 7 [],
      s.dispatcher.publish false 7 [])) = some ([], [(2, 7), (3, 7)]) ∧
    Always step Owned start ops :=
  ⟨by decide, dispatcher_owned _ (by decide)⟩

end DispatcherState
