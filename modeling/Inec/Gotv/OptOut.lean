import Inec.Gotv.Dispatch

/-!
# Opt-outs

The opt-outs and what is sent of internal/gotv/dispatch.go, dispatch_v2.go and cmd/gotv-svc, over the contacts
of all parties: handleOptOut, the STOP messages of handleInboundSMS, processWhatsAppReceipt and
handleWhatsAppInbound, the dispatches of LaunchCampaign and ExecuteNextWave, and RetryDLQ. Whether a contact has
opted out is looked at once, when a dispatch reads its contacts. The workers send later, up to three times, what
fails goes with its number to `gotv_dead_letter_queue`, and RetryDLQ sends what it finds there.

A phone is a Go string. The column `phone_hash` is what PhoneHash gave when the contact was created, HMAC with
SHA-256 of the normalized number; it is a parameter. An inbound message is one whose signature and keyword were
right. `fails` is a statement the database refuses.
-/

namespace Inec.OptOut

open Outreach

abbrev Phone := List UInt8

def ascii (text : String) : Phone := text.toList.map fun c => UInt8.ofNat c.toNat

/-- NormalizePhone; its replacements are of single bytes. -/
def normalizePhone (phone : Phone) : Phone :=
  let p := phone.filter fun c => c ∉ ascii " -()"
  let p := if 1 < p.length ∧ p.take 1 = ascii "0" then ascii "+234" ++ p.drop 1 else p
  if 3 < p.length ∧ p.take 3 = ascii "234" then ascii "+" ++ p else p

/-- The tries of a worker. -/
def maxRetries : Nat := 3

structure Contact where
  contactId : String
  partyId : Nat
  /-- What `phone_encrypted` holds. -/
  phone : Phone
  consentId : Option String
  optedOut : Bool
  deriving DecidableEq, Repr

/-- Where a worker is with its contact: the number of a try before and after its Send is started. -/
inductive Phase
  | waiting
  | attempt (n : Nat)
  | sending (n : Nat)
  deriving DecidableEq, Repr

structure Task where
  contactId : String
  phone : Phone
  phase : Phase
  deriving DecidableEq, Repr

structure Dispatch where
  campaignId : String
  partyId : Nat
  tasks : List Task
  deriving DecidableEq, Repr

/-- A row of `gotv_dead_letter_queue`. -/
structure DeadLetter where
  id : Nat
  partyId : Nat
  campaignId : String
  contactId : String
  /-- `phone_encrypted`, which holds the number as it is. -/
  phone : Phone
  resolved : Bool
  deriving DecidableEq, Repr

/-- A RetryDLQ that has read its items. -/
structure Retry where
  items : List DeadLetter
  sending : Bool
  deriving DecidableEq, Repr

structure State where
  contacts : List Contact
  /-- The consent records whose status is active. -/
  consents : List String
  /-- The campaign and the contact of each row of `gotv_outreach_log`. -/
  log : List (String × String)
  dlq : List DeadLetter
  dispatches : List Dispatch
  retries : List Retry
  /-- The normalized numbers for which an opt-out has been committed. -/
  optOuts : List Phone
  deriving DecidableEq, Repr

inductive Input
  | handleOptOut (contactId : String) (partyId : Nat) (fails : Bool)
  /-- Its second statement. -/
  | withdrawConsent (contactId : String) (partyId : Nat)
  | handleInboundSMS (sender : Phone) (fails : Bool)
  | processWhatsAppReceipt (sender : Phone) (fails : Bool)
  | handleWhatsAppInbound (sender : Phone) (fails : Bool)
  | launchCampaign (campaignId : String) (partyId : Nat)
  | executeNextWave (sequenceId : String) (partyId waveNumber : Nat)
  /-- A worker up to the first try. -/
  | check (index item : Nat) (decrypts dnd : Bool) (now : Nat) (logFails : Bool)
  | send (index item : Nat)
  | sent (index item : Nat) (result : DeliveryStatus) (logFails dlqFails : Bool)
  /-- The contacts no worker has are left when the context is cancelled. -/
  | stop (index : Nat)
  | retryDLQ (partyId : Nat)
  | resend (index : Nat) (hasAdapter : Bool)
  | resent (index : Nat) (result : DeliveryStatus) (fails : Bool)
  deriving DecidableEq, Repr

/-- `phone[:4]` of a string of fewer bytes: in the log line of processOptOut, and in that of handleInboundSMS when
processOptOut has failed. -/
def Input.panics : Input → Bool
  | .handleInboundSMS sender _ => sender ≠ [] && sender.length < 4
  | .processWhatsAppReceipt sender fails => !fails && sender.length < 4
  | _ => false

def start (contacts : List Contact) (consents : List String) : State := ⟨contacts, consents, [], [], [], [], []⟩

namespace State

variable (s : State)

/-! ### The opt-outs -/

/-- An UPDATE that sets `opted_out`. -/
def markOptedOut (selects : Contact → Bool) (phone : Phone) : State :=
  { s with
    contacts := s.contacts.map fun c => if selects c then { c with optedOut := true } else c
    optOuts := s.optOuts ++ [normalizePhone phone] }

/-- processOptOut, up to its log line. -/
def processOptOut (phoneHash : Phone → String) (phone : Phone) (fails : Bool) : State :=
  if fails then s
  else s.markOptedOut (fun c => phoneHash (normalizePhone c.phone) = phoneHash (normalizePhone phone)) phone

def find (contactId : String) (partyId : Nat) : Option Contact :=
  s.contacts.find? fun c => c.contactId = contactId ∧ c.partyId = partyId

def handleOptOut (contactId : String) (partyId : Nat) (fails : Bool) : State :=
  match s.find contactId partyId with
  | some c => if fails then s else s.markOptedOut (fun c => c.contactId = contactId ∧ c.partyId = partyId) c.phone
  | none => s

def withdrawConsent (contactId : String) (partyId : Nat) : State :=
  match s.find contactId partyId with
  | some c => { s with consents := s.consents.filter fun consentId => some consentId ≠ c.consentId }
  | none => s

/-! ### The dispatches -/

/-- The WHERE of the selection. -/
def eligible (campaignId : String) (partyId : Nat) : List Contact :=
  s.contacts.filter fun c =>
    c.partyId = partyId ∧ c.optedOut = false ∧ (∃ consentId ∈ c.consentId, consentId ∈ s.consents) ∧
      ¬∃ row ∈ s.log, row = (campaignId, c.contactId)

/-- A launch and the read of its dispatch. -/
def launch (campaignId : String) (partyId : Nat) : State :=
  let selected := (s.eligible campaignId partyId).take 100000
  { s with
    dispatches := s.dispatches ++ [⟨campaignId, partyId, selected.map fun c => ⟨c.contactId, c.phone, .waiting⟩⟩] }

def setTasks (index : Nat) (d : Dispatch) (tasks : List Task) : State :=
  { s with dispatches := s.dispatches.set index { d with tasks := tasks } }

/-- The row of a contact; the worker goes on to another. -/
def logOutreach (index item : Nat) (d : Dispatch) (t : Task) (fails : Bool) : State :=
  { s.setTasks index d (d.tasks.eraseIdx item) with
    log := s.log ++ (if fails then [] else [(d.campaignId, t.contactId)]) }

def enqueueDLQ (d : Dispatch) (t : Task) (fails : Bool) : State :=
  { s with
    dlq := s.dlq ++
      (if fails then [] else [⟨s.dlq.length + 1, d.partyId, d.campaignId, t.contactId, t.phone, false⟩]) }

def check (index item : Nat) (d : Dispatch) (t : Task) (decrypts dnd : Bool) (now : Nat)
    (logFails : Bool) : State :=
  if t.phase = .waiting then
    match refusal decrypts dnd now with
    | some _ => s.logOutreach index item d t logFails
    | none => s.setTasks index d (d.tasks.set item { t with phase := .attempt 0 })
  else s

def send (index item : Nat) (d : Dispatch) (t : Task) : State :=
  match t.phase with
  | .attempt n => s.setTasks index d (d.tasks.set item { t with phase := .sending n })
  | _ => s

/-- Send returns. -/
def sent (index item : Nat) (d : Dispatch) (t : Task) (result : DeliveryStatus)
    (logFails dlqFails : Bool) : State :=
  match t.phase with
  | .sending n =>
      if result = .failed ∧ n + 1 < maxRetries then
        s.setTasks index d (d.tasks.set item { t with phase := .attempt (n + 1) })
      else if result.accepted then s.logOutreach index item d t logFails
      else (s.logOutreach index item d t logFails).enqueueDLQ d t dlqFails
  | _ => s

def stop (index : Nat) (d : Dispatch) : State := s.setTasks index d (d.tasks.filter (·.phase ≠ .waiting))

def onTask (index item : Nat) (f : Dispatch → Task → State) : State :=
  (s.dispatches[index]?).elim s fun d => (d.tasks[item]?).elim s (f d)

/-! ### The dead letters -/

def retryDLQ (partyId : Nat) : State :=
  let items := (s.dlq.filter fun item => item.partyId = partyId ∧ item.resolved = false).take 500
  { s with retries := s.retries ++ [⟨items, false⟩] }

def setRetry (index : Nat) (r : Retry) : State := { s with retries := s.retries.set index r }

/-- The next item, unless it has no adapter any more. -/
def resend (index : Nat) (r : Retry) (hasAdapter : Bool) : State :=
  match r.items with
  | _ :: rest =>
      if r.sending then s
      else if hasAdapter then s.setRetry index { r with sending := true }
      else s.setRetry index ⟨rest, false⟩
  | [] => s

def resent (index : Nat) (r : Retry) (result : DeliveryStatus) (fails : Bool) : State :=
  match r.items with
  | item :: rest =>
      if r.sending then
        if result.accepted = true ∧ fails = false then
          { s.setRetry index ⟨rest, false⟩ with
            dlq := Rows.update DeadLetter.id item.id (fun row => { row with resolved := true }) s.dlq }
        else s.setRetry index ⟨rest, false⟩
      else s
  | [] => s

def onRetry (index : Nat) (f : Retry → State) : State := (s.retries[index]?).elim s f

def step (phoneHash : Phone → String) (s : State) : Input → State
  | .handleOptOut contactId partyId fails => s.handleOptOut contactId partyId fails
  | .withdrawConsent contactId partyId => s.withdrawConsent contactId partyId
  | .handleInboundSMS sender fails => if sender = [] then s else s.processOptOut phoneHash sender fails
  | .processWhatsAppReceipt sender fails => s.processOptOut phoneHash sender fails
  | .handleWhatsAppInbound sender fails => s.processOptOut phoneHash sender fails
  | .launchCampaign campaignId partyId => s.launch campaignId partyId
  | .executeNextWave sequenceId partyId waveNumber =>
      s.launch (sequenceId ++ "-wave-" ++ toString waveNumber) partyId
  | .check index item decrypts dnd now logFails =>
      s.onTask index item fun d t => s.check index item d t decrypts dnd now logFails
  | .send index item => s.onTask index item fun d t => s.send index item d t
  | .sent index item result logFails dlqFails =>
      s.onTask index item fun d t => s.sent index item d t result logFails dlqFails
  | .stop index => (s.dispatches[index]?).elim s fun d => s.stop index d
  | .retryDLQ partyId => s.retryDLQ partyId
  | .resend index hasAdapter => s.onRetry index fun r => s.resend index r hasAdapter
  | .resent index result fails => s.onRetry index fun r => s.resent index r result fails

/-! ### What is asked -/

/-- The number a step starts a Send to. -/
def started : Input → Option Phone
  | .send index item => do
      let d ← s.dispatches[index]?
      let t ← d.tasks[item]?
      match t.phase with
      | .attempt _ => some t.phone
      | _ => none
  | .resend index hasAdapter => do
      let r ← s.retries[index]?
      let item ← r.items.head?
      if r.sending = false ∧ hasAdapter = true then some item.phone else none
  | _ => none

/-- No Send is started to a number for which an opt-out has been committed. -/
def Respected (i : Input) : Prop := ∀ phone ∈ s.started i, normalizePhone phone ∉ s.optOuts

/-- The numbers a message can still go to without a look at the contacts: of the tasks of the dispatches, the
items of the retries, and the dead letters that are not resolved. -/
def underway : List Phone :=
  s.dispatches.flatMap (fun d => d.tasks.map (·.phone)) ++ s.retries.flatMap (fun r => r.items.map (·.phone)) ++
    (s.dlq.filter (·.resolved = false)).map (·.phone)

/-- No message is under way to the number. -/
def Quiet (phone : Phone) : Prop := ∀ other ∈ s.underway, normalizePhone other ≠ normalizePhone phone

/-- An opt-out meets no message under way to its number, that of a handler meets no other contact with the
number that has not opted out, and the sender of a STOP message has four bytes. -/
def Careful : Input → Prop
  | .handleOptOut contactId partyId fails => fails = false → ∀ c ∈ s.find contactId partyId, s.Quiet c.phone ∧
      ∀ other ∈ s.contacts, normalizePhone other.phone = normalizePhone c.phone →
        (other.contactId = contactId ∧ other.partyId = partyId) ∨ other.optedOut = true
  | .handleInboundSMS sender fails => sender ≠ [] → 4 ≤ sender.length ∧ (fails = false → s.Quiet sender)
  | .processWhatsAppReceipt sender fails => fails = false → 4 ≤ sender.length ∧ s.Quiet sender
  | .handleWhatsAppInbound sender fails => fails = false → s.Quiet sender
  | _ => True

/-- The step sends nothing to a number that has opted out, and does not panic. -/
def Kept (i : Input) : Prop := s.Respected i ∧ i.panics = false

instance (i : Input) : Decidable (s.Respected i) :=
  inferInstanceAs (Decidable (∀ phone ∈ s.started i, normalizePhone phone ∉ s.optOuts))

instance (phone : Phone) : Decidable (s.Quiet phone) :=
  inferInstanceAs (Decidable (∀ other ∈ s.underway, normalizePhone other ≠ normalizePhone phone))

instance (i : Input) : Decidable (s.Kept i) := inferInstanceAs (Decidable (_ ∧ _))

instance : (i : Input) → Decidable (s.Careful i)
  | .handleOptOut contactId partyId fails =>
      inferInstanceAs (Decidable (fails = false → ∀ c ∈ s.find contactId partyId, s.Quiet c.phone ∧
        ∀ other ∈ s.contacts, normalizePhone other.phone = normalizePhone c.phone →
          (other.contactId = contactId ∧ other.partyId = partyId) ∨ other.optedOut = true))
  | .handleInboundSMS sender fails =>
      inferInstanceAs (Decidable (sender ≠ [] → 4 ≤ sender.length ∧ (fails = false → s.Quiet sender)))
  | .processWhatsAppReceipt sender fails =>
      inferInstanceAs (Decidable (fails = false → 4 ≤ sender.length ∧ s.Quiet sender))
  | .handleWhatsAppInbound sender fails => inferInstanceAs (Decidable (fails = false → s.Quiet sender))
  | .withdrawConsent _ _ | .launchCampaign _ _ | .executeNextWave _ _ _ | .check _ _ _ _ _ _ | .send _ _
  | .sent _ _ _ _ _ | .stop _ | .retryDLQ _ | .resend _ _ | .resent _ _ _ => .isTrue trivial

/-! ### What is under way -/

/-- No message is under way to a number that has opted out, and no contact with one can be selected. -/
structure Inv : Prop where
  quiet : ∀ phone ∈ s.underway, normalizePhone phone ∉ s.optOuts
  optedOut : ∀ c ∈ s.contacts, normalizePhone c.phone ∈ s.optOuts → c.optedOut = true

variable {s} {s' : State} {phoneHash : Phone → String}

theorem start_inv (contacts : List Contact) (consents : List String) : (start contacts consents).Inv :=
  ⟨fun _ h => absurd h List.not_mem_nil, fun _ _ h => absurd h List.not_mem_nil⟩

theorem mem_underway {phone : Phone} : phone ∈ s.underway ↔
    (∃ d ∈ s.dispatches, ∃ t ∈ d.tasks, t.phone = phone) ∨ (∃ r ∈ s.retries, ∃ item ∈ r.items, item.phone = phone) ∨
      ∃ item ∈ s.dlq, item.resolved = false ∧ item.phone = phone := by
  simp [underway, and_assoc]

/-- A Send is started to a number a message is under way to. -/
theorem started_mem_underway {i : Input} {phone : Phone} (h : s.started i = some phone) : phone ∈ s.underway := by
  rw [mem_underway]
  cases i with
  | send index item =>
      simp only [started, Option.bind_eq_bind, Option.bind_eq_some_iff] at h
      obtain ⟨d, hd, t, ht, hphase⟩ := h
      split at hphase
      · exact .inl ⟨d, List.mem_of_getElem? hd, t, List.mem_of_getElem? ht, Option.some.inj hphase⟩
      · cases hphase
  | resend index hasAdapter =>
      simp only [started, Option.bind_eq_bind, Option.bind_eq_some_iff] at h
      obtain ⟨r, hr, item, hitem, hsent⟩ := h
      split at hsent
      · exact .inr (.inl ⟨r, List.mem_of_getElem? hr, item, List.mem_of_head? hitem, Option.some.inj hsent⟩)
      · cases hsent
  | _ => cases h

theorem Inv.respected (h : s.Inv) (i : Input) : s.Respected i :=
  fun phone hphone => h.quiet phone (started_mem_underway hphone)

/-! ### The steps -/

/-- A step that opts nobody out, and sends nothing on its way to a number that has opted out. -/
theorem Inv.of_underway (h : s.Inv) (hcontacts : s'.contacts = s.contacts) (hoptOuts : s'.optOuts = s.optOuts)
    (hunderway : ∀ phone ∈ s'.underway, phone ∈ s.underway ∨ normalizePhone phone ∉ s.optOuts) : s'.Inv where
  quiet phone hphone := by
    rw [hoptOuts]
    exact (hunderway phone hphone).elim (h.quiet phone) id
  optedOut := by
    rw [hcontacts, hoptOuts]
    exact h.optedOut

/-- An opt-out that meets no message under way to its number and marks every contact with it. -/
theorem Inv.markOptedOut (h : s.Inv) {selects : Contact → Bool} {phone : Phone} (hquiet : s.Quiet phone)
    (hselects : ∀ c ∈ s.contacts, normalizePhone c.phone = normalizePhone phone →
      selects c = true ∨ c.optedOut = true) : (s.markOptedOut selects phone).Inv where
  quiet other hother := by
    show normalizePhone other ∉ s.optOuts ++ [normalizePhone phone]
    rw [List.mem_append, List.mem_singleton, not_or]
    exact ⟨h.quiet other hother, hquiet other hother⟩
  optedOut c hc hopted := by
    obtain ⟨old, hold, rfl⟩ := List.mem_map.mp hc
    by_cases hselected : selects old = true
    · rw [if_pos hselected]
    · rw [if_neg hselected] at hopted ⊢
      rcases List.mem_append.mp hopted with hbefore | hnew
      · exact h.optedOut old hold hbefore
      · exact (hselects old hold (List.mem_singleton.mp hnew)).resolve_left hselected

/-- An opt-out by number marks every contact with the number, as they have one hash. -/
theorem Inv.processOptOut (h : s.Inv) {phone : Phone} {fails : Bool} (hquiet : fails = false → s.Quiet phone) :
    (s.processOptOut phoneHash phone fails).Inv := by
  rw [State.processOptOut]
  split
  case isTrue => exact h
  case isFalse hworks =>
    refine h.markOptedOut (hquiet (Bool.not_eq_true _ ▸ hworks)) fun c _ heq => .inl ?_
    rw [decide_eq_true_eq, heq]

theorem Inv.handleOptOut (h : s.Inv) {contactId : String} {partyId : Nat} {fails : Bool}
    (hcareful : s.Careful (.handleOptOut contactId partyId fails)) :
    (s.handleOptOut contactId partyId fails).Inv := by
  rw [State.handleOptOut]
  split
  case h_1 c hfind =>
    split
    case isTrue => exact h
    case isFalse hworks =>
      obtain ⟨hquiet, hothers⟩ := hcareful (Bool.not_eq_true _ ▸ hworks) c hfind
      exact h.markOptedOut hquiet fun other hother heq => (hothers other hother heq).imp_left fun hsame =>
        decide_eq_true hsame
  case h_2 => exact h

/-- A dispatch begins with contacts that have not opted out. -/
theorem Inv.launch (h : s.Inv) (campaignId : String) (partyId : Nat) : (s.launch campaignId partyId).Inv := by
  refine h.of_underway rfl rfl fun phone hphone => ?_
  rw [mem_underway] at hphone ⊢
  rcases hphone with ⟨d, hd, t, ht, rfl⟩ | hrest
  · rcases List.mem_append.mp hd with hold | hnew
    · exact .inl (.inl ⟨d, hold, t, ht, rfl⟩)
    · obtain rfl := List.mem_singleton.mp hnew
      obtain ⟨c, hc, rfl⟩ := List.mem_map.mp ht
      obtain ⟨hmem, hwhere⟩ := List.mem_filter.mp (List.mem_of_mem_take hc)
      refine .inr fun hopted => ?_
      rw [decide_eq_true_eq, h.optedOut c hmem hopted] at hwhere
      cases hwhere.2.1
  · exact .inl (.inr hrest)

/-- A dispatch that goes on with contacts it has. -/
theorem Inv.setTasks (h : s.Inv) {index : Nat} {d : Dispatch} (hget : s.dispatches[index]? = some d)
    {tasks : List Task} (htasks : ∀ t ∈ tasks, ∃ old ∈ d.tasks, old.phone = t.phone) :
    (s.setTasks index d tasks).Inv := by
  refine h.of_underway rfl rfl fun phone hphone => .inl ?_
  rw [mem_underway] at hphone ⊢
  rcases hphone with ⟨x, hx, t, ht, rfl⟩ | hrest
  · rcases List.mem_or_eq_of_mem_set hx with hold | rfl
    · exact .inl ⟨x, hold, t, ht, rfl⟩
    · obtain ⟨old, hold, heq⟩ := htasks t ht
      exact .inl ⟨d, List.mem_of_getElem? hget, old, hold, heq⟩
  · exact .inr hrest

/-- A task in another phase. -/
theorem exists_of_mem_set {d : Dispatch} {item : Nat} {t : Task} (hitem : d.tasks[item]? = some t) (phase : Phase) :
    ∀ x ∈ d.tasks.set item { t with phase := phase }, ∃ old ∈ d.tasks, old.phone = x.phone := by
  intro x hx
  rcases List.mem_or_eq_of_mem_set hx with hold | rfl
  · exact ⟨x, hold, rfl⟩
  · exact ⟨t, List.mem_of_getElem? hitem, rfl⟩

theorem Inv.logOutreach (h : s.Inv) {index item : Nat} {d : Dispatch} (hget : s.dispatches[index]? = some d)
    (t : Task) (fails : Bool) : (s.logOutreach index item d t fails).Inv := by
  have hleft : (s.setTasks index d (d.tasks.eraseIdx item)).Inv :=
    h.setTasks hget fun x hx => ⟨x, List.mem_of_mem_eraseIdx hx, rfl⟩
  exact hleft.of_underway rfl rfl fun _ hphone => .inl hphone

theorem Inv.enqueueDLQ (h : s.Inv) (d : Dispatch) {t : Task} (ht : normalizePhone t.phone ∉ s.optOuts)
    (fails : Bool) : (s.enqueueDLQ d t fails).Inv := by
  refine h.of_underway rfl rfl fun phone hphone => ?_
  rw [mem_underway] at hphone ⊢
  rcases hphone with htask | hretry | ⟨item, hitem, hopen, rfl⟩
  · exact .inl (.inl htask)
  · exact .inl (.inr (.inl hretry))
  · rcases List.mem_append.mp hitem with hold | hnew
    · exact .inl (.inr (.inr ⟨item, hold, hopen, rfl⟩))
    · cases fails with
      | true => cases hnew
      | false =>
          obtain rfl := List.mem_singleton.mp hnew
          exact .inr ht

section Tasks

variable {index item : Nat} {d : Dispatch} {t : Task}

theorem Inv.check (h : s.Inv) (hget : s.dispatches[index]? = some d) (hitem : d.tasks[item]? = some t)
    (decrypts dnd : Bool) (now : Nat) (logFails : Bool) :
    (s.check index item d t decrypts dnd now logFails).Inv := by
  rw [State.check]
  split
  · split
    · exact h.logOutreach hget t logFails
    · exact h.setTasks hget (exists_of_mem_set hitem _)
  · exact h

theorem Inv.send (h : s.Inv) (hget : s.dispatches[index]? = some d) (hitem : d.tasks[item]? = some t) :
    (s.send index item d t).Inv := by
  rw [State.send]
  split
  · exact h.setTasks hget (exists_of_mem_set hitem _)
  · exact h

/-- What fails for good goes to the dead letters, and its number has not opted out. -/
theorem Inv.sent (h : s.Inv) (hget : s.dispatches[index]? = some d) (hitem : d.tasks[item]? = some t)
    (result : DeliveryStatus) (logFails dlqFails : Bool) :
    (s.sent index item d t result logFails dlqFails).Inv := by
  have hphone : t.phone ∈ s.underway :=
    mem_underway.mpr (.inl ⟨d, List.mem_of_getElem? hget, t, List.mem_of_getElem? hitem, rfl⟩)
  rw [State.sent]
  split
  · split
    · exact h.setTasks hget (exists_of_mem_set hitem _)
    · split
      · exact h.logOutreach hget t logFails
      · exact (h.logOutreach hget t logFails).enqueueDLQ d (h.quiet t.phone hphone) dlqFails
  · exact h

theorem Inv.onTask (h : s.Inv) {f : Dispatch → Task → State}
    (hf : ∀ d t, s.dispatches[index]? = some d → d.tasks[item]? = some t → (f d t).Inv) :
    (s.onTask index item f).Inv := by
  rw [State.onTask]
  cases hget : s.dispatches[index]? with
  | none => exact h
  | some d =>
      show ((d.tasks[item]?).elim s (f d)).Inv
      cases hitem : d.tasks[item]? with
      | none => exact h
      | some t => exact hf d t hget hitem

end Tasks

theorem Inv.retryDLQ (h : s.Inv) (partyId : Nat) : (s.retryDLQ partyId).Inv := by
  refine h.of_underway rfl rfl fun phone hphone => .inl ?_
  rw [mem_underway] at hphone ⊢
  rcases hphone with htask | ⟨r, hr, item, hitem, rfl⟩ | hletter
  · exact .inl htask
  · rcases List.mem_append.mp hr with hold | hnew
    · exact .inr (.inl ⟨r, hold, item, hitem, rfl⟩)
    · obtain rfl := List.mem_singleton.mp hnew
      obtain ⟨hmem, hwhere⟩ := List.mem_filter.mp (List.mem_of_mem_take hitem)
      exact .inr (.inr ⟨item, hmem, (of_decide_eq_true hwhere).2, rfl⟩)
  · exact .inr (.inr hletter)

section Retries

variable {index : Nat} {r : Retry}

/-- A retry that goes on with items it has. -/
theorem Inv.setRetry (h : s.Inv) (hget : s.retries[index]? = some r) {r' : Retry}
    (hitems : ∀ item ∈ r'.items, item ∈ r.items) : (s.setRetry index r').Inv := by
  refine h.of_underway rfl rfl fun phone hphone => .inl ?_
  rw [mem_underway] at hphone ⊢
  rcases hphone with htask | ⟨x, hx, item, hitem, rfl⟩ | hletter
  · exact .inl htask
  · rcases List.mem_or_eq_of_mem_set hx with hold | rfl
    · exact .inr (.inl ⟨x, hold, item, hitem, rfl⟩)
    · exact .inr (.inl ⟨r, List.mem_of_getElem? hget, item, hitems item hitem, rfl⟩)
  · exact .inr (.inr hletter)

theorem Inv.resend (h : s.Inv) (hget : s.retries[index]? = some r) (hasAdapter : Bool) :
    (s.resend index r hasAdapter).Inv := by
  rw [State.resend]
  split
  case h_1 item rest hitems =>
    split
    · exact h
    · split
      · exact h.setRetry hget fun _ hitem => hitem
      · exact h.setRetry hget fun x hx => hitems ▸ List.mem_cons_of_mem item hx
  case h_2 => exact h

/-- A dead letter that is resolved is one fewer to send. -/
theorem Inv.resent (h : s.Inv) (hget : s.retries[index]? = some r) (result : DeliveryStatus) (fails : Bool) :
    (s.resent index r result fails).Inv := by
  rw [State.resent]
  split
  case h_1 item rest hitems =>
    have hnext : (s.setRetry index ⟨rest, false⟩).Inv :=
      h.setRetry hget fun x hx => hitems ▸ List.mem_cons_of_mem item hx
    split
    · split
      · refine hnext.of_underway rfl rfl fun phone hphone => .inl ?_
        rw [mem_underway] at hphone ⊢
        rcases hphone with htask | hretry | ⟨row, hrow, hopen, rfl⟩
        · exact .inl htask
        · exact .inr (.inl hretry)
        · rcases Rows.mem_update.mp hrow with ⟨old, -, -, rfl⟩ | ⟨hold, -⟩
          · cases hopen
          · exact .inr (.inr ⟨row, hold, hopen, rfl⟩)
      · exact hnext
    · exact h
  case h_2 => exact h

theorem Inv.onRetry (h : s.Inv) {f : Retry → State} (hf : ∀ r, s.retries[index]? = some r → (f r).Inv) :
    (s.onRetry index f).Inv := by
  rw [State.onRetry]
  cases hget : s.retries[index]? with
  | none => exact h
  | some r => exact hf r hget

end Retries

theorem Inv.step (h : s.Inv) {i : Input} (hcareful : s.Careful i) : (s.step phoneHash i).Inv := by
  cases i with
  | handleOptOut contactId partyId fails => exact h.handleOptOut hcareful
  | withdrawConsent contactId partyId =>
      rw [State.step, State.withdrawConsent]
      split
      · exact h.of_underway rfl rfl fun _ hphone => .inl hphone
      · exact h
  | handleInboundSMS sender fails =>
      rw [State.step]
      split
      case isTrue => exact h
      case isFalse hsender => exact h.processOptOut (hcareful hsender).2
  | processWhatsAppReceipt sender fails => exact h.processOptOut fun hworks => (hcareful hworks).2
  | handleWhatsAppInbound sender fails => exact h.processOptOut hcareful
  | launchCampaign campaignId partyId => exact h.launch campaignId partyId
  | executeNextWave sequenceId partyId waveNumber => exact h.launch _ partyId
  | check index item decrypts dnd now logFails =>
      exact h.onTask fun d t hget hitem => h.check hget hitem decrypts dnd now logFails
  | send index item => exact h.onTask fun d t hget hitem => h.send hget hitem
  | sent index item result logFails dlqFails =>
      exact h.onTask fun d t hget hitem => h.sent hget hitem result logFails dlqFails
  | stop index =>
      rw [State.step]
      cases hget : s.dispatches[index]? with
      | none => exact h
      | some d => exact h.setTasks hget fun t ht => ⟨t, (List.mem_filter.mp ht).1, rfl⟩
  | retryDLQ partyId => exact h.retryDLQ partyId
  | resend index hasAdapter => exact h.onRetry fun r hget => h.resend hget hasAdapter
  | resent index result fails => exact h.onRetry fun r hget => h.resent hget result fails

/-- A sender of four bytes has the ones that are logged. -/
theorem Careful.not_panics {i : Input} (h : s.Careful i) : i.panics = false := by
  cases i with
  | handleInboundSMS sender fails =>
      rw [Input.panics, ← Bool.not_eq_true, Bool.and_eq_true, decide_eq_true_eq, decide_eq_true_eq]
      rintro ⟨hsender, hshort⟩
      exact absurd (h hsender).1 (Nat.not_le.mpr hshort)
  | processWhatsAppReceipt sender fails =>
      rw [Input.panics, ← Bool.not_eq_true, Bool.and_eq_true, decide_eq_true_eq, Bool.not_eq_true']
      rintro ⟨hworks, hshort⟩
      exact absurd (h hworks).1 (Nat.not_le.mpr hshort)
  | _ => rfl

end State

/-! ### The runs -/

open State

/-- The opt-outs are respected, and none of them fails abnormally, in any run whose opt-outs meet no message
under way to their number, cover its contacts and come from a sender of four bytes. -/
theorem optOut_respected_of_careful (phoneHash : Phone → String) (contacts : List Contact) (consents : List String)
    (inputs : List Input)
    (hcareful : Runs.AllSteps (step phoneHash) Careful (start contacts consents) inputs) :
    Runs.AllSteps (step phoneHash) Kept (start contacts consents) inputs := by
  have hstep : ∀ (s : State) i, s.Inv → s.Careful i → (s.step phoneHash i).Inv := fun _ _ h hi => h.step hi
  exact Runs.AllSteps.imp_of_inv hstep (fun _ i h hi => ⟨h.respected i, hi.not_panics⟩)
    (start_inv contacts consents) hcareful

/-- A number as it is typed, and as a provider writes it. -/
def typed : Phone := ascii "0803 123 4567"

def international : Phone := ascii "+2348031234567"

example : normalizePhone typed = normalizePhone international := by decide +kernel

def twoContacts : List Contact :=
  [⟨"C1", 1, typed, some "K1", false⟩, ⟨"C2", 1, ascii "08057654321", some "K2", false⟩]

/-- The three tries of the first contact of the first dispatch. -/
def failedTries : List Input :=
  .check 0 0 true false noon false :: (List.replicate 3 [.send 0 0, .sent 0 0 .failed false false]).flatten

/-- The first contact gets its message from the dead letters; its STOP comes before the next wave. -/
def stoppedBetweenWaves : List Input :=
  .executeNextWave "S" 1 0 :: failedTries ++
    [.check 0 0 true false noon false, .send 0 0, .sent 0 0 .delivered false false, .retryDLQ 1, .resend 0 true,
      .resent 0 .delivered false, .handleInboundSMS international false, .executeNextWave "S" 1 1,
      .check 1 0 true false noon false, .send 1 0]

theorem respected_stoppedBetweenWaves :
    Runs.AllSteps (step fun phone => toString phone) Careful (start twoContacts ["K1", "K2"]) stoppedBetweenWaves ∧
      Runs.AllSteps (step fun phone => toString phone) Kept
        (start twoContacts ["K1", "K2"]) stoppedBetweenWaves := by
  have hcareful : Runs.AllSteps (step fun phone => toString phone) Careful (start twoContacts ["K1", "K2"])
      stoppedBetweenWaves := by
    decide +kernel
  exact ⟨hcareful, optOut_respected_of_careful _ _ _ _ hcareful⟩

/-- A dead letter is left of the first contact when its STOP comes, and RetryDLQ reads it after that. -/
def stoppedWithDeadLetter : List Input :=
  .launchCampaign "G" 1 :: failedTries ++ [.handleInboundSMS international false, .retryDLQ 1]

/-- The number that has opted out is sent the dead letter, and a sender of three bytes makes the handler panic. -/
theorem dead_letter_sent_and_short_sender_panics :
    (¬ ∀ phoneHash contacts consents inputs,
      Runs.AllSteps (step phoneHash) Respected (start contacts consents) inputs) ∧ ¬ ∀ i :
        Input, i.panics = false := by
  constructor
  · intro h
    have hrun := h (fun phone => toString phone) twoContacts ["K1", "K2"]
      (stoppedWithDeadLetter ++ [.resend 0 true])
    exact absurd hrun.last (by decide +kernel)
  · intro h
    exact absurd (h (.handleInboundSMS (ascii "700") false)) (by decide +kernel)

end Inec.OptOut
