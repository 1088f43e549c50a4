import Mathlib.Data.List.Nodup
import Mathlib.Data.String.Basic

/-!
# The event bus over Redis

`RedisBus` of internal/eventbus/bus.go: a pod publishes an event to its own subscribers and to the Redis channel of
the event's type, and a subscription listens on both. In the pod a pattern may end in a star; a channel is a channel
of exactly its name. So a subscription to the type itself hears an event of its own pod twice, and one with a star
hears those of other pods never.

Redis delivers what is published on a channel once to every subscription of the channel, on every pod. The text of
an event on the wire is `json.Marshal`'s.
-/

namespace Inec.EventBus

structure Event (Data : Type) where
  id : String
  eventType : String
  source : String
  timestamp : Int
  data : Data
  traceId : String

structure Subscriber where
  id : String
  pattern : String
  deriving DecidableEq, Repr

/-- A call of Subscribe, by its number in the pod. Ids of subscribers need not differ. -/
structure Registration where
  number : Nat
  sub : Subscriber
  deriving DecidableEq, Repr

/-- Exact match, or the start of the type before a star. -/
def matchPattern (pattern eventType : String) : Bool :=
  pattern == eventType ||
    (pattern.toList.getLast? == some '*' && pattern.toList.dropLast.isPrefixOf eventType.toList)

def channelOf (name : String) : String := "inec:events:" ++ name

/-! ### One pod -/

/-- `subscribers[sub.Pattern] = append(...)`. -/
def addSubscriber (r : Registration) : List (String × List Registration) → List (String × List Registration)
  | [] => [(r.sub.pattern, [r])]
  | (pattern, subs) :: rest =>
      if pattern = r.sub.pattern then (pattern, subs ++ [r]) :: rest
      else (pattern, subs) :: addSubscriber r rest

/-- A bus made by NewRedis with both functions, and the channels it has subscribed to. -/
structure RedisBus where
  subscribers : List (String × List Registration)
  channels : List (String × Registration)
  deriving DecidableEq, Repr

def RedisBus.subscribe (bus : RedisBus) (r : Registration) : RedisBus where
  subscribers := addSubscriber r bus.subscribers
  channels := bus.channels ++ [(channelOf r.sub.pattern, r)]

/-- LocalBus.Publish: the subscribers whose handlers it starts. -/
def RedisBus.publishLocal (bus : RedisBus) (eventType : String) : List Registration :=
  bus.subscribers.flatMap fun entry => if matchPattern entry.1 eventType then entry.2 else []

/-- The subscribers of one channel. -/
def RedisBus.listeners (bus : RedisBus) (channel : String) : List Registration :=
  (bus.channels.filter fun c => c.1 == channel).map (·.2)

/-- The calls of Subscribe on a pod, numbered. -/
def registrations (subs : List Subscriber) : List Registration := subs.zipIdx.map fun s => ⟨s.2, s.1⟩

def busOf (subs : List Subscriber) : RedisBus := (registrations subs).foldl RedisBus.subscribe ⟨[], []⟩

/-! ### All pods -/

section Pods

variable {Data : Type} (marshal : Event Data → Option String) (unmarshal : String → Option (Event Data))

/-- The handlers that are called on a pod for one event, and the event each is called with. The subscriptions of the
pods are given pod by pod. -/
def handlerCalls (pods : List (List Subscriber)) (publisher : Nat) (event : Event Data) (pod : Nat) :
    List (Registration × Event Data) :=
  let bus := busOf (pods.getD pod [])
  (if pod = publisher then (bus.publishLocal event.eventType).map fun r => (r, event) else []) ++
    match (marshal event).bind unmarshal with
    | none => []
    | some received => (bus.listeners (channelOf event.eventType)).map fun r => (r, received)

def callCount (pods : List (List Subscriber)) (publisher : Nat) (event : Event Data) (pod number : Nat) : Nat :=
  ((handlerCalls marshal unmarshal pods publisher event pod).map (·.1.number)).count number

/-- Every subscription that matches has its handler called once, on every pod. -/
def HandledOnce (pods : List (List Subscriber)) (publisher : Nat) (event : Event Data) : Prop :=
  ∀ (pod number : Nat) (sub : Subscriber), (pods.getD pod [])[number]? = some sub →
    matchPattern sub.pattern event.eventType = true →
      callCount marshal unmarshal pods publisher event pod number = 1

/-- The event can be written for the wire and read from it. -/
def Carried (event : Event Data) : Prop := ((marshal event).bind unmarshal).isSome = true

instance (event : Event Data) : Decidable (Carried marshal unmarshal event) :=
  inferInstanceAs (Decidable (_ = true))

/-- The matching subscriptions are to the type itself on the other pods, which the event gets to; on its own pod they
have a star, unless the event does not get to Redis. -/
def OneWay (pods : List (List Subscriber)) (publisher : Nat) (event : Event Data) : Prop :=
  ∀ (pod number : Nat) (sub : Subscriber), (pods.getD pod [])[number]? = some sub →
    matchPattern sub.pattern event.eventType = true →
      if pod = publisher then sub.pattern = event.eventType → ¬Carried marshal unmarshal event
      else sub.pattern = event.eventType ∧ Carried marshal unmarshal event

end Pods

/-! ### The subscriptions of a pod -/

theorem publishLocal_addSubscriber (eventType : String) (r : Registration)
    (subscribers : List (String × List Registration)) :
    ((addSubscriber r subscribers).flatMap fun entry => if matchPattern entry.1 eventType then entry.2 else []).Perm
      ((subscribers.flatMap fun entry => if matchPattern entry.1 eventType then entry.2 else []) ++
        if matchPattern r.sub.pattern eventType then [r] else []) := by
  fun_induction addSubscriber r subscribers with
  | case1 => simp
  | case2 subs rest =>
      rw [List.flatMap_cons, List.flatMap_cons]
      split
      · rw [List.append_assoc, List.append_assoc]
        exact List.perm_append_comm.append_left subs
      · simp
  | case3 pattern subs rest hne ih =>
      rw [List.flatMap_cons, List.flatMap_cons, List.append_assoc]
      exact ih.append_left _

/-- The handlers a pod starts are those of the patterns that match, each once. -/
theorem publishLocal_perm (eventType : String) (regs : List Registration) (bus : RedisBus) :
    ((regs.foldl RedisBus.subscribe bus).publishLocal eventType).Perm
      (bus.publishLocal eventType ++ regs.filter fun r => matchPattern r.sub.pattern eventType) := by
  induction regs generalizing bus with
  | nil => simp
  | cons r rest ih =>
      rw [List.foldl_cons]
      refine (ih (bus.subscribe r)).trans ?_
      have hadd := publishLocal_addSubscriber eventType r bus.subscribers
      refine (hadd.append_right _).trans ?_
      rw [List.append_assoc, List.filter_cons]
      split <;> exact List.Perm.refl _

theorem channels_foldl (regs : List Registration) (bus : RedisBus) :
    (regs.foldl RedisBus.subscribe bus).channels =
      bus.channels ++ regs.map fun r => (channelOf r.sub.pattern, r) := by
  induction regs generalizing bus with
  | nil => simp
  | cons r rest ih =>
      rw [List.foldl_cons, ih, RedisBus.subscribe, List.append_assoc]
      rfl

theorem channelOf_inj {a b : String} (h : channelOf a = channelOf b) : a = b := by
  have hchars := congrArg String.toList h
  rw [channelOf, channelOf, String.toList_append, String.toList_append] at hchars
  exact String.toList_inj.mp (List.append_cancel_left hchars)

/-- The subscribers of a type's channel are those to the type itself. -/
theorem listeners_busOf (subs : List Subscriber) (eventType : String) :
    (busOf subs).listeners (channelOf eventType) =
      (registrations subs).filter fun r => r.sub.pattern == eventType := by
  have hchannel : ∀ r : Registration, (channelOf r.sub.pattern == channelOf eventType) =
      (r.sub.pattern == eventType) := by
    intro r
    rw [Bool.eq_iff_iff, beq_iff_eq, beq_iff_eq]
    exact ⟨channelOf_inj, congrArg channelOf⟩
  rw [RedisBus.listeners, busOf, channels_foldl, List.nil_append, List.filter_map, List.map_map]
  simp only [Function.comp_def, hchannel, List.map_id']

/-- A selection of a pod's subscriptions has the number of a subscription once or not at all. -/
theorem count_number (subs : List Subscriber) (selects : Registration → Bool) {number : Nat} {sub : Subscriber}
    (h : subs[number]? = some sub) :
    (((registrations subs).filter selects).map (·.number)).count number =
      if selects ⟨number, sub⟩ then 1 else 0 := by
  have hnumbers : (registrations subs).map (·.number) = List.range' 0 subs.length := by
    rw [registrations, List.map_map]
    exact List.zipIdx_map_snd 0 subs
  have hnodup : (((registrations subs).filter selects).map (·.number)).Nodup := by
    refine List.Nodup.sublist (List.filter_sublist.map _) ?_
    rw [hnumbers]
    exact List.nodup_range'
  have hmem : ∀ r ∈ registrations subs, r.number = number → r = ⟨number, sub⟩ := by
    rintro r hr rfl
    obtain ⟨entry, hentry, rfl⟩ := List.mem_map.mp hr
    have hget := List.mem_zipIdx_iff_getElem?.mp hentry
    rw [hget] at h
    rw [Option.some.inj h]
  split
  · next hselects =>
    refine List.count_eq_one_of_mem hnodup ?_
    refine List.mem_map.mpr ⟨⟨number, sub⟩, List.mem_filter.mpr ⟨?_, hselects⟩, rfl⟩
    exact List.mem_map.mpr ⟨(sub, number), List.mem_zipIdx_iff_getElem?.mpr h, rfl⟩
  · next hselects =>
    refine List.count_eq_zero.mpr fun hcounted => ?_
    obtain ⟨r, hr, hnumber⟩ := List.mem_map.mp hcounted
    rw [List.mem_filter] at hr
    rw [hmem r hr.1 hnumber] at hr
    exact hselects hr.2

/-! ### How often a handler is called -/

section Calls

variable {Data : Type} {marshal : Event Data → Option String} {unmarshal : String → Option (Event Data)}
  {pods : List (List Subscriber)} {publisher pod number : Nat} {event : Event Data} {sub : Subscriber}

/-- Once on the publishing pod if the pattern matches, and once by way of Redis if it is the type. -/
theorem callCount_eq (h : (pods.getD pod [])[number]? = some sub) :
    callCount marshal unmarshal pods publisher event pod number =
      (if pod = publisher then if matchPattern sub.pattern event.eventType then 1 else 0 else 0) +
        if Carried marshal unmarshal event then if sub.pattern == event.eventType then 1 else 0 else 0 := by
  rw [callCount, handlerCalls, List.map_append, List.count_append]
  congr 1
  · split
    · have hperm := publishLocal_perm event.eventType (registrations (pods.getD pod [])) ⟨[], []⟩
      rw [List.map_map, ← count_number _ (fun r => matchPattern r.sub.pattern event.eventType) h]
      exact (hperm.map (·.number)).count_eq number
    · rfl
  · cases hwire : (marshal event).bind unmarshal with
    | none =>
        rw [if_neg (by rw [Carried, hwire]; exact Bool.false_ne_true)]
        rfl
    | some received =>
        rw [if_pos (by rw [Carried, hwire]; rfl), List.map_map, listeners_busOf]
        exact count_number _ (fun r => r.sub.pattern == event.eventType) h

/-- Exactly once everywhere is one way everywhere. -/
theorem handledOnce_iff_oneWay :
    HandledOnce marshal unmarshal pods publisher event ↔ OneWay marshal unmarshal pods publisher event := by
  refine forall_congr' fun pod => forall_congr' fun number => forall_congr' fun sub =>
    forall_congr' fun hsub => forall_congr' fun hmatch => ?_
  rw [callCount_eq hsub, hmatch]
  by_cases hpod : pod = publisher
  · by_cases hcarried : Carried marshal unmarshal event <;> simp [hpod, hcarried]
  · by_cases hcarried : Carried marshal unmarshal event <;> simp [hpod, hcarried]

end Calls

section Mistaken

def createdEvent : Event Unit := ⟨"e-1", "election.created", "elections", 0, (), ""⟩

/-- Two pods with a subscription each: to the type itself on both, and with a star on both. -/
theorem handled_twice_and_never :
    ¬HandledOnce (fun _ => some "") (fun _ => some createdEvent)
        [[⟨"a", "election.created"⟩], [⟨"b", "election.created"⟩]] 0 createdEvent ∧
      ¬HandledOnce (fun _ => some "") (fun _ => some createdEvent)
        [[⟨"a", "election.*"⟩], [⟨"b", "election.*"⟩]] 0 createdEvent := by
  constructor
  · intro h
    exact absurd (h 0 0 _ rfl (by decide)) (by decide)
  · intro h
    exact absurd (h 1 0 _ rfl (by decide)) (by decide)

end Mistaken

end Inec.EventBus
