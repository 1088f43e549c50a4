import Inec.Lib.Rows
import Inec.Lib.Runs

/-!
# Campaign dispatch

LaunchCampaign, LaunchCampaignV2, PauseCampaign and `dispatch` of internal/gotv/dispatch.go and dispatch_v2.go,
for one campaign on a messaging channel. A dispatch reads once, at its start, the eligible contacts that have no
row in `gotv_outreach_log`, hands them to its workers one after the other, and a worker writes the row when it
is done with its contact: after a message, but also for a contact that was sent none, because its number does
not decrypt, is on the registry of numbers that are not to be disturbed, or because it is night. Nothing keeps a
launch from reading the contacts that another one still has before it.

The contacts are those of the party that have given consent and not opted out, in the order of the query. What
is enqueued in Kafka is read by a consumer that sends nothing. `fails` is a statement the database refuses; the
handlers look at no error of the statements that write.
-/

namespace Inec.Outreach

inductive CampaignStatus
  | draft | scheduled | active | paused | completed | failed
  deriving DecidableEq, Repr

/-- The status an adapter's Send returns. -/
inductive DeliveryStatus
  | delivered | failed | pending | optedOut
  deriving DecidableEq, Repr

/-- The message is with the provider. -/
def DeliveryStatus.accepted : DeliveryStatus → Bool
  | .delivered | .pending => true
  | .failed | .optedOut => false

def DeliveryStatus.text : DeliveryStatus → String
  | .delivered => "delivered"
  | .failed => "failed"
  | .pending => "pending"
  | .optedOut => "opted_out"

/-- What a worker makes of a contact. Only a message that failed is tried again, so of its tries the last alone
can have been accepted. -/
inductive Outcome
  | decryptFailed
  | dndBlocked
  | deferred
  | sent (result : DeliveryStatus)
  deriving DecidableEq, Repr

namespace Outcome

def status : Outcome → String
  | .decryptFailed => "failed"
  | .dndBlocked => "dnd_blocked"
  | .deferred => "deferred"
  | .sent result => result.text

def tried : Outcome → Bool
  | .sent _ => true
  | _ => false

def accepted : Outcome → Bool
  | .sent result => result.accepted
  | _ => false

end Outcome

/-- A row of `gotv_outreach_log`. -/
structure OutreachRow where
  contactId : String
  status : String
  deriving DecidableEq, Repr

/-- A contact in the hands of a worker. -/
structure Work where
  contactId : String
  outcome : Option Outcome
  deriving DecidableEq, Repr

/-- Its message was accepted, and its row is not written. -/
def Work.accepted (w : Work) : Bool := w.outcome.any Outcome.accepted

structure Dispatch where
  /-- The contacts that no worker has taken, once they are read. -/
  rest : Option (List String)
  working : List Work
  cancelled : Bool
  ended : Bool
  deriving DecidableEq, Repr

/-- The contacts a dispatch has before it. -/
def Dispatch.pending (d : Dispatch) : List String := d.rest.getD [] ++ d.working.map (·.contactId)

/-- The contact was sent a message that was accepted, and a worker of the dispatch is to write the row. -/
def Dispatch.Owes (d : Dispatch) (c : String) : Prop := ∃ w ∈ d.working, w.contactId = c ∧ w.accepted = true

structure State where
  /-- `contact_id` is unique. -/
  contacts : { contacts : List String // contacts.Nodup }
  status : CampaignStatus
  log : List OutreachRow
  dispatches : List Dispatch
  /-- The dispatch whose cancellation the engine has in `running`. -/
  running : Option Nat
  /-- Launches that a launch of the second version has left to a goroutine. -/
  fallbacks : Nat
  /-- What is in the topic. -/
  enqueued : List String
  /-- The contacts for whom a message was tried, and those of the messages that were accepted. -/
  attempted : List String
  accepted : List String
  deriving DecidableEq, Repr

inductive Input
  | launchCampaign (hasAdapter : Bool)
  /-- `kafka` is how many messages are enqueued before one fails; `none` where Kafka is not there. -/
  | launchCampaignV2 (kafka : Option Nat)
  | fallback (hasAdapter : Bool)
  | select (index : Nat) (fails : Bool)
  | take (index : Nat)
  | work (index item : Nat) (decrypts dnd : Bool) (now : Nat) (result : DeliveryStatus)
  | logOutreach (index item : Nat) (fails : Bool)
  /-- The branch of the cancelled context. -/
  | stop (index : Nat)
  | finish (index : Nat)
  | pauseCampaign
  /-- The request ends whose context a dispatch has. -/
  | requestEnds (index : Nat)
  /-- A handler that pauses, resumes or schedules sets the status. -/
  | setStatus (status : CampaignStatus)
  deriving DecidableEq, Repr

def start (contacts : { contacts : List String // contacts.Nodup }) (status : CampaignStatus) : State :=
  ⟨contacts, status, [], [], none, 0, [], [], []⟩

namespace State

variable (s : State)

def logged (contactId : String) : Bool := s.log.any fun row => row.contactId == contactId

/-- The WHERE of the selection. -/
def eligible : List String := s.contacts.1.filter fun c => !s.logged c

/-- LaunchCampaign: without an adapter the campaign has failed, else a dispatch begins. -/
def launch (hasAdapter : Bool) : State :=
  if s.status = .active then
    if hasAdapter then
      { s with dispatches := s.dispatches ++ [⟨none, [], false, false⟩], running := some s.dispatches.length }
    else { s with status := .failed }
  else s

/-- LaunchCampaignV2: what it could not enqueue it leaves to LaunchCampaign. -/
def launchV2 (kafka : Option Nat) : State :=
  if s.status = .active ∨ s.status = .scheduled then
    let selected := s.eligible.take 500000
    match kafka with
    | none => { s with status := .active, fallbacks := s.fallbacks + 1 }
    | some n =>
        { s with
          status := .active
          enqueued := s.enqueued ++ selected.take n
          fallbacks := if n < selected.length then s.fallbacks + 1 else s.fallbacks }
  else s

def setDispatch (index : Nat) (d : Dispatch) : State := { s with dispatches := s.dispatches.set index d }

/-- The deferred function of a dispatch. -/
def complete (index : Nat) : State :=
  { s.setDispatch index ⟨some [], [], false, true⟩ with running := none, status := .completed }

def select (index : Nat) (d : Dispatch) (fails : Bool) : State :=
  if d.rest = none then
    if fails then s.complete index else s.setDispatch index { d with rest := some (s.eligible.take 100000) }
  else s

/-- The next contact goes to the workers. -/
def take (index : Nat) (d : Dispatch) : State :=
  match d.rest with
  | some (c :: rest) => s.setDispatch index { d with rest := some rest, working := d.working ++ [⟨c, none⟩] }
  | _ => s

end State

/-- `time.Now().UTC().Add(time.Hour).Hour()`, from Unix seconds. -/
def hourInWAT (now : Nat) : Nat := (now / 3600 + 1) % 24

/-- Why a worker sends its contact no message. -/
def refusal (decrypts dnd : Bool) (now : Nat) : Option Outcome :=
  if !decrypts then some .decryptFailed
  else if dnd then some .dndBlocked
  else if hourInWAT now < 8 ∨ hourInWAT now ≥ 20 then some .deferred
  else none

def outcomeOf (decrypts dnd : Bool) (now : Nat) (result : DeliveryStatus) : Outcome :=
  (refusal decrypts dnd now).getD (.sent result)

namespace State

variable (s : State)

/-- A worker up to `logOutreach`. -/
def work (index item : Nat) (d : Dispatch) (outcome : Outcome) : State :=
  match d.working[item]? with
  | some ⟨c, none⟩ =>
      { s.setDispatch index { d with working := d.working.set item ⟨c, some outcome⟩ } with
        attempted := s.attempted ++ (if outcome.tried then [c] else [])
        accepted := s.accepted ++ (if outcome.accepted then [c] else []) }
  | _ => s

/-- The row, and the worker is free again. -/
def logOutreach (index item : Nat) (d : Dispatch) (fails : Bool) : State :=
  match d.working[item]? with
  | some ⟨c, some outcome⟩ =>
      { s.setDispatch index { d with working := d.working.eraseIdx item } with
        log := s.log ++ (if fails then [] else [⟨c, outcome.status⟩]) }
  | _ => s

def stop (index : Nat) (d : Dispatch) : State :=
  if d.cancelled = true ∧ d.rest.getD [] ≠ [] ∧ d.working = [] then s.complete index else s

def finish (index : Nat) (d : Dispatch) : State :=
  if d.ended = false ∧ d.rest = some [] ∧ d.working = [] then s.complete index else s

def cancel (index : Nat) : State :=
  match s.dispatches[index]? with
  | some d => s.setDispatch index { d with cancelled := true }
  | none => s

def pauseCampaign : State :=
  match s.running with
  | some index => { s.cancel index with running := none }
  | none => s

def on (index : Nat) (f : Dispatch → State) : State := (s.dispatches[index]?).elim s f

def step : Input → State
  | .launchCampaign hasAdapter => s.launch hasAdapter
  | .launchCampaignV2 kafka => s.launchV2 kafka
  | .fallback hasAdapter =>
      if s.fallbacks = 0 then s else ({ s with fallbacks := s.fallbacks - 1 } : State).launch hasAdapter
  | .select index fails => s.on index fun d => s.select index d fails
  | .take index => s.on index fun d => s.take index d
  | .work index item decrypts dnd now result =>
      s.on index fun d => s.work index item d (outcomeOf decrypts dnd now result)
  | .logOutreach index item fails => s.on index fun d => s.logOutreach index item d fails
  | .stop index => s.on index fun d => s.stop index d
  | .finish index => s.on index fun d => s.finish index d
  | .pauseCampaign => s.pauseCampaign
  | .requestEnds index => s.cancel index
  | .setStatus status => { s with status := status }

/-! ### What is asked -/

/-- No contact has been sent two messages that were accepted. -/
def Single : Prop := s.accepted.Nodup

instance : Decidable s.Single := inferInstanceAs (Decidable s.accepted.Nodup)

/-- A contact for whom no message was tried is still found by the selection. -/
def Selectable : Prop := ∀ c ∈ s.contacts.1, c ∉ s.attempted → c ∈ s.eligible

/-- A dispatch reads its contacts when no other has any before it; a worker sends its contact a message; and no
row is lost of a message that was accepted. -/
def Careful : Input → Prop
  | .select index fails => fails = false → ∀ d ∈ s.dispatches.eraseIdx index, d.pending = []
  | .work index item decrypts dnd now result =>
      (∃ d ∈ s.dispatches[index]?, ∃ w ∈ d.working[item]?, w.outcome = none) →
        (outcomeOf decrypts dnd now result).tried
  | .logOutreach index item fails =>
      fails = true → ∀ d ∈ s.dispatches[index]?, ∀ w ∈ d.working[item]?, w.accepted = false
  | _ => True

instance : (i : Input) → Decidable (s.Careful i)
  | .select index fails =>
      inferInstanceAs (Decidable (fails = false → ∀ d ∈ s.dispatches.eraseIdx index, d.pending = []))
  | .work index item decrypts dnd now result =>
      inferInstanceAs (Decidable ((∃ d ∈ s.dispatches[index]?, ∃ w ∈ d.working[item]?, w.outcome = none) →
        (outcomeOf decrypts dnd now result).tried))
  | .logOutreach index item fails =>
      inferInstanceAs (Decidable (fails = true →
        ∀ d ∈ s.dispatches[index]?, ∀ w ∈ d.working[item]?, w.accepted = false))
  | .launchCampaign _ | .launchCampaignV2 _ | .fallback _ | .take _ | .stop _ | .finish _ | .pauseCampaign
  | .requestEnds _ | .setStatus _ => .isTrue trivial

/-! ### What a dispatch knows of its contacts -/

/-- A contact with a worker was sent a message, or nothing yet. -/
structure Handled (w : Work) : Prop where
  attempted : w.outcome.isSome → w.contactId ∈ s.attempted
  accepted : w.accepted = false → w.contactId ∉ s.accepted

structure Sound (d : Dispatch) : Prop where
  unread : d.rest = none → d.working = []
  nodup : d.pending.Nodup
  fresh : ∀ c ∈ d.pending, s.logged c = false
  rest : ∀ c ∈ d.rest.getD [], c ∉ s.accepted
  working : ∀ w ∈ d.working, s.Handled w

/-- Only one dispatch has contacts before it; what was accepted has its row or is with a worker, and what has
its row was tried. -/
structure Inv : Prop where
  once : s.accepted.Nodup
  logged : ∀ c, s.logged c = true → c ∈ s.attempted
  accepted : ∀ c ∈ s.accepted, s.logged c = true ∨ ∃ d ∈ s.dispatches, d.Owes c
  alone : ∃ k, ∀ d ∈ s.dispatches.eraseIdx k, d.pending = []
  sound : ∀ d ∈ s.dispatches, s.Sound d

variable {s} {s' : State}

theorem start_inv (contacts : { contacts : List String // contacts.Nodup }) (status : CampaignStatus) :
    (start contacts status).Inv :=
  ⟨.nil, fun _ hc => absurd hc Bool.false_ne_true, fun _ hc => absurd hc List.not_mem_nil, ⟨0, nofun⟩, nofun⟩

theorem Inv.selectable (h : s.Inv) : s.Selectable := by
  intro c hc hnot
  refine List.mem_filter.mpr ⟨hc, ?_⟩
  rw [Bool.not_eq_true', ← Bool.not_eq_true]
  exact fun hlogged => hnot (h.logged c hlogged)

theorem sound_of_pending_eq_nil {d : Dispatch} (h : d.pending = []) : s.Sound d := by
  obtain ⟨hrest, hmap⟩ := List.append_eq_nil_iff.mp h
  have hworking : d.working = [] := List.map_eq_nil_iff.mp hmap
  refine ⟨fun _ => hworking, by rw [h]; exact .nil, ?_, ?_, ?_⟩
  · rw [h]
    exact fun c hc => absurd hc List.not_mem_nil
  · rw [hrest]
    exact fun c hc => absurd hc List.not_mem_nil
  · rw [hworking]
    exact fun w hw => absurd hw List.not_mem_nil

/-- A step that changes neither the log nor the messages, and gives no dispatch a contact. -/
theorem Inv.of_dispatches (h : s.Inv) (hlog : s'.log = s.log)
    (hattempted : s'.attempted = s.attempted) (haccepted : s'.accepted = s.accepted)
    (howes : ∀ c, (∃ d ∈ s.dispatches, d.Owes c) → ∃ d ∈ s'.dispatches, d.Owes c)
    (halone : ∃ k, ∀ d ∈ s'.dispatches.eraseIdx k, d.pending = [])
    (hsound : ∀ d ∈ s'.dispatches, s.Sound d) : s'.Inv where
  once := haccepted ▸ h.once
  logged c hc := by
    rw [State.logged, hlog] at hc
    exact hattempted ▸ h.logged c hc
  accepted c hc := by
    rw [State.logged, hlog]
    exact (h.accepted c (haccepted ▸ hc)).imp id (howes c)
  alone := halone
  sound d hd := by
    have hold := hsound d hd
    refine ⟨hold.unread, hold.nodup, ?_, haccepted ▸ hold.rest, ?_⟩
    · intro c hc
      rw [State.logged, hlog]
      exact hold.fresh c hc
    · intro w hw
      obtain ⟨htried, hunsent⟩ := hold.working w hw
      exact ⟨hattempted ▸ htried, haccepted ▸ hunsent⟩

/-! One dispatch among the others. -/

section Others

variable {l : List Dispatch} {index : Nat} {d d' x : Dispatch}

theorem not_owes (h : d.working = []) {c : String} : ¬ d.Owes c := by
  rintro ⟨w, hw, -⟩
  rw [h] at hw
  cases hw

theorem working_eq_nil (h : x.pending = []) : x.working = [] :=
  List.map_eq_nil_iff.mp (List.append_eq_nil_iff.mp h).2

/-- Only the dispatch that has contacts before it goes on, so the others have none. -/
theorem eq_or_pending_eq_nil (halone : ∃ k, ∀ x ∈ l.eraseIdx k, x.pending = []) (hget : l[index]? = some d)
    (hd : d.pending ≠ []) (hx : x ∈ l.set index d') : x = d' ∨ x.pending = [] := by
  obtain ⟨k, halone⟩ := halone
  have hk : index = k := by
    by_contra hne
    exact hd (halone d (List.mem_eraseIdx_iff_getElem?.mpr ⟨index, hne, hget⟩))
  subst hk
  obtain ⟨j, hj⟩ := List.mem_iff_getElem?.mp hx
  by_cases heq : index = j
  · subst heq
    rw [List.getElem?_set_self (List.getElem?_eq_some_iff.mp hget).1, Option.some.injEq] at hj
    exact .inl hj.symm
  · rw [List.getElem?_set_ne heq] at hj
    exact .inr (halone x (List.mem_eraseIdx_iff_getElem?.mpr ⟨j, Ne.symm heq, hj⟩))

/-- A dispatch that is given no contact leaves one alone with contacts. -/
theorem alone_set (halone : ∃ k, ∀ x ∈ l.eraseIdx k, x.pending = []) (hget : l[index]? = some d)
    (hd : d.pending = [] → d'.pending = []) : ∃ k, ∀ x ∈ (l.set index d').eraseIdx k, x.pending = [] := by
  obtain ⟨k, halone⟩ := halone
  refine ⟨k, fun x hx => ?_⟩
  obtain ⟨j, hjk, hj⟩ := List.mem_eraseIdx_iff_getElem?.mp hx
  by_cases heq : index = j
  · subst heq
    rw [List.getElem?_set_self (List.getElem?_eq_some_iff.mp hget).1, Option.some.injEq] at hj
    exact hj ▸ hd (halone d (List.mem_eraseIdx_iff_getElem?.mpr ⟨index, hjk, hget⟩))
  · rw [List.getElem?_set_ne heq] at hj
    exact halone x (List.mem_eraseIdx_iff_getElem?.mpr ⟨j, hjk, hj⟩)

end Others

/-! ### The steps -/

/-- One dispatch goes on without a message and without a row. -/
theorem Inv.setDispatch (h : s.Inv) {index : Nat} {d d' : Dispatch} (hget : s.dispatches[index]? = some d)
    (hd : d.pending = [] → d'.pending = [])
    (howes : ∀ c, d.Owes c → d'.Owes c)
    (hsound : s.Sound d') : (s.setDispatch index d').Inv := by
  refine h.of_dispatches rfl rfl rfl ?_ (alone_set h.alone hget hd) ?_
  · rintro c ⟨x, hx, hc⟩
    rcases Rows.eq_or_mem_set hget hx with rfl | hmem
    · exact ⟨d', Rows.mem_set_self hget, howes c hc⟩
    · exact ⟨x, hmem, hc⟩
  · intro x hx
    rcases List.mem_or_eq_of_mem_set hx with hold | rfl
    · exact h.sound x hold
    · exact hsound

/-- Nothing but the dispatches matters to the invariant. -/
theorem Inv.congr (h : s.Inv) (hlog : s'.log = s.log)
    (hattempted : s'.attempted = s.attempted) (haccepted : s'.accepted = s.accepted)
    (hdispatches : s'.dispatches = s.dispatches) : s'.Inv :=
  h.of_dispatches hlog hattempted haccepted (fun _ hc => hdispatches ▸ hc) (hdispatches ▸ h.alone)
    (hdispatches ▸ h.sound)

theorem Inv.launch (h : s.Inv) (hasAdapter : Bool) : (s.launch hasAdapter).Inv := by
  rw [State.launch]
  split
  · split
    · refine h.of_dispatches rfl rfl rfl ?_ ?_ ?_
      · rintro c ⟨d, hd, hc⟩
        exact ⟨d, List.mem_append_left _ hd, hc⟩
      · obtain ⟨k, halone⟩ := h.alone
        refine ⟨k, fun d hd => ?_⟩
        obtain ⟨j, hjk, hj⟩ := List.mem_eraseIdx_iff_getElem?.mp hd
        rw [List.getElem?_append] at hj
        split at hj
        · exact halone d (List.mem_eraseIdx_iff_getElem?.mpr ⟨j, hjk, hj⟩)
        · obtain rfl := List.mem_singleton.mp (List.mem_of_getElem? hj)
          rfl
      · intro d hd
        rcases List.mem_append.mp hd with hold | hnew
        · exact h.sound d hold
        · obtain rfl := List.mem_singleton.mp hnew
          exact sound_of_pending_eq_nil rfl
    · exact h.congr rfl rfl rfl rfl
  · exact h

theorem Inv.launchV2 (h : s.Inv) (kafka : Option Nat) : (s.launchV2 kafka).Inv := by
  rw [State.launchV2]
  split
  · cases kafka <;> exact h.congr rfl rfl rfl rfl
  · exact h

/-- A dispatch with no contact at a worker ends. -/
theorem Inv.complete (h : s.Inv) {index : Nat} {d : Dispatch} (hget : s.dispatches[index]? = some d)
    (hidle : d.working = []) : (s.complete index).Inv := by
  have hended : (s.setDispatch index ⟨some [], [], false, true⟩).Inv :=
    h.setDispatch hget (fun _ => rfl) (fun _ hc => absurd hc (not_owes hidle)) (sound_of_pending_eq_nil rfl)
  exact hended.congr rfl rfl rfl rfl

theorem Inv.select (h : s.Inv) {index : Nat} {d : Dispatch} (hget : s.dispatches[index]? = some d) {fails : Bool}
    (hcareful : fails = false → ∀ x ∈ s.dispatches.eraseIdx index, x.pending = []) :
    (s.select index d fails).Inv := by
  have hd := h.sound d (List.mem_of_getElem? hget)
  rw [State.select]
  split
  case isTrue hunread =>
    have hidle := hd.unread hunread
    split
    case isTrue => exact h.complete hget hidle
    case isFalse hworks =>
      have hothers := hcareful (Bool.not_eq_true _ ▸ hworks)
      have hpending : Dispatch.pending { d with rest := some (s.eligible.take 100000) } =
          s.eligible.take 100000 := by
        rw [Dispatch.pending, hidle]
        exact List.append_nil _
      have hfresh : ∀ c ∈ s.eligible.take 100000, s.logged c = false := by
        intro c hc
        have hc := (List.mem_filter.mp (List.mem_of_mem_take hc)).2
        rwa [Bool.not_eq_true'] at hc
      refine h.of_dispatches rfl rfl rfl ?_ ⟨index, ?_⟩ ?_
      · rintro c ⟨x, hx, hc⟩
        rcases Rows.eq_or_mem_set hget hx with rfl | hmem
        · exact absurd hc (not_owes hidle)
        · exact ⟨x, hmem, hc⟩
      · show ∀ x ∈ (s.dispatches.set index _).eraseIdx index, x.pending = []
        rw [List.eraseIdx_set_eq]
        exact hothers
      · intro x hx
        rcases List.mem_or_eq_of_mem_set hx with hold | rfl
        · exact h.sound x hold
        · refine ⟨nofun, ?_, ?_, ?_, hidle ▸ nofun⟩
          · rw [hpending]
            exact (s.contacts.2.filter _).take
          · rw [hpending]
            exact hfresh
          · intro c hc haccepted
            rcases h.accepted c haccepted with hlogged | ⟨y, hy, hc'⟩
            · rw [hfresh c hc] at hlogged
              cases hlogged
            · obtain ⟨j, hj⟩ := List.mem_iff_getElem?.mp hy
              by_cases heq : j = index
              · subst heq
                rw [hget, Option.some.injEq] at hj
                exact not_owes (hj ▸ hidle) hc'
              · have hnone := hothers y (List.mem_eraseIdx_iff_getElem?.mpr ⟨j, heq, hj⟩)
                exact not_owes (working_eq_nil hnone) hc'
  case isFalse => exact h

theorem Inv.take (h : s.Inv) {index : Nat} {d : Dispatch} (hget : s.dispatches[index]? = some d) :
    (s.take index d).Inv := by
  have hd := h.sound d (List.mem_of_getElem? hget)
  rw [State.take]
  split
  case h_1 c rest hrest =>
    have hpending : (Dispatch.pending { d with rest := some rest, working := d.working ++ [⟨c, none⟩] }).Perm
        d.pending := by
      rw [Dispatch.pending, Dispatch.pending, hrest, List.map_append, ← List.append_assoc]
      exact List.perm_append_singleton c _
    refine h.setDispatch hget ?_ ?_ ?_
    · intro hnone
      exact (hnone ▸ hpending).eq_nil
    · rintro c' ⟨w, hw, hc'⟩
      exact ⟨w, List.mem_append_left _ hw, hc'⟩
    · refine ⟨nofun, hpending.nodup_iff.mpr hd.nodup, fun c hc => hd.fresh c (hpending.mem_iff.mp hc), ?_, ?_⟩
      · intro c' hc'
        exact hd.rest c' (by rw [hrest]; exact List.mem_cons_of_mem c hc')
      · intro w hw
        rcases List.mem_append.mp hw with hw | hw
        · exact hd.working w hw
        · obtain rfl := List.mem_singleton.mp hw
          exact ⟨nofun, fun _ => hd.rest c (by rw [hrest]; exact List.mem_cons_self)⟩
  case h_2 => exact h

theorem Inv.cancel (h : s.Inv) (index : Nat) : (s.cancel index).Inv := by
  rw [State.cancel]
  split
  case h_1 d hget =>
    have hd := h.sound d (List.mem_of_getElem? hget)
    exact h.setDispatch hget id (fun _ hc => hc) ⟨hd.unread, hd.nodup, hd.fresh, hd.rest, hd.working⟩
  case h_2 => exact h

/-- After a step of the one dispatch with contacts it is enough to look at that one. -/
theorem Inv.forall_sound_set (h : s.Inv) {index : Nat} {d d' : Dispatch} (hget : s.dispatches[index]? = some d)
    (hd : d.pending ≠ []) (hsound : s'.Sound d') : ∀ x ∈ s.dispatches.set index d', s'.Sound x := by
  intro x hx
  rcases eq_or_pending_eq_nil h.alone hget hd hx with rfl | hnil
  · exact hsound
  · exact sound_of_pending_eq_nil hnil

theorem contactId_mem_pending {d : Dispatch} {w : Work} (hw : w ∈ d.working) : w.contactId ∈ d.pending :=
  List.mem_append_right _ (List.mem_map_of_mem hw)

/-- Each contact of a dispatch is with one worker. -/
theorem Sound.nodup_working {d : Dispatch} (h : s.Sound d) : (d.working.map (·.contactId)).Nodup :=
  (List.nodup_append.mp h.nodup).2.1

/-- A contact with a worker is no longer before the dispatch. -/
theorem Sound.not_mem_rest {d : Dispatch} (h : s.Sound d) {w : Work} (hw : w ∈ d.working) :
    w.contactId ∉ d.rest.getD [] :=
  fun hc => (List.nodup_append.mp h.nodup).2.2 _ hc _ (List.mem_map_of_mem hw) rfl

theorem mem_append_ite {l : List String} {b : Bool} {c c' : String} :
    c' ∈ l ++ (if b then [c] else []) ↔ c' ∈ l ∨ b = true ∧ c' = c := by
  cases b <;> simp

section Worker

variable {index item : Nat} {d : Dispatch} {c : String} {outcome : Outcome}

theorem pending_set (hitem : d.working[item]? = some ⟨c, none⟩) :
    Dispatch.pending { d with working := d.working.set item ⟨c, some outcome⟩ } = d.pending := by
  have hkeys : (d.working.set item ⟨c, some outcome⟩).map (·.contactId) = d.working.map (·.contactId) :=
    Rows.map_set_of_key_eq hitem rfl
  show d.rest.getD [] ++ (d.working.set item ⟨c, some outcome⟩).map (·.contactId) = _
  rw [hkeys]
  rfl

/-- A dispatch whose worker has sent its contact a message. -/
theorem Sound.work (h : s.Sound d) (hitem : d.working[item]? = some ⟨c, none⟩) (htried : outcome.tried)
    (hlog : s'.log = s.log) (hattempted : s'.attempted = s.attempted ++ (if outcome.tried then [c] else []))
    (haccepted : s'.accepted = s.accepted ++ (if outcome.accepted then [c] else [])) :
    s'.Sound { d with working := d.working.set item ⟨c, some outcome⟩ } := by
  have hw : Work.mk c none ∈ d.working := List.mem_of_getElem? hitem
  refine ⟨?_, pending_set hitem ▸ h.nodup, ?_, ?_, ?_⟩
  · intro hunread
    rw [h.unread hunread] at hw
    cases hw
  · intro c' hc'
    rw [State.logged, hlog]
    exact h.fresh c' (pending_set hitem ▸ hc')
  · intro c' hc' hmem
    rw [haccepted, mem_append_ite] at hmem
    rcases hmem with hold | ⟨-, rfl⟩
    · exact h.rest c' hc' hold
    · exact h.not_mem_rest hw hc'
  · intro w hmem
    rcases Rows.eq_or_ne_of_mem_set h.nodup_working hitem hmem with rfl | ⟨hold, hne⟩
    · refine ⟨fun _ => hattempted ▸ mem_append_ite.mpr (.inr ⟨htried, rfl⟩), fun hnot hc => ?_⟩
      rw [haccepted, mem_append_ite] at hc
      rcases hc with hold | ⟨hsent, -⟩
      · exact (h.working _ hw).accepted rfl hold
      · rw [show Work.accepted ⟨c, some outcome⟩ = outcome.accepted from rfl, hsent] at hnot
        cases hnot
    · obtain ⟨htaken, hunsent⟩ := h.working w hold
      refine ⟨fun hsome => hattempted ▸ List.mem_append_left _ (htaken hsome), fun hnot hc => ?_⟩
      rw [haccepted, mem_append_ite] at hc
      rcases hc with hmem | ⟨-, heq⟩
      · exact hunsent hnot hmem
      · exact hne heq

/-- A worker sends its contact a message. -/
theorem Inv.work (h : s.Inv) (hget : s.dispatches[index]? = some d)
    (htried : (∃ w ∈ d.working[item]?, w.outcome = none) → outcome.tried) : (s.work index item d outcome).Inv := by
  have hd := h.sound d (List.mem_of_getElem? hget)
  rw [State.work]
  split
  case h_1 c hitem =>
    have htried := htried ⟨_, hitem, rfl⟩
    have hw : Work.mk c none ∈ d.working := List.mem_of_getElem? hitem
    have hnew : c ∉ s.accepted := (hd.working _ hw).accepted rfl
    refine ⟨?_, ?_, ?_, alone_set h.alone hget fun hnil => (pending_set hitem).trans hnil, ?_⟩
    · show (s.accepted ++ if outcome.accepted then [c] else []).Nodup
      split
      · refine List.nodup_append.mpr ⟨h.once, List.nodup_singleton c, ?_⟩
        intro a ha b hb heq
        rw [List.mem_singleton] at hb
        exact hnew (hb ▸ heq ▸ ha)
      · rw [List.append_nil]
        exact h.once
    · exact fun c' hc' => List.mem_append_left _ (h.logged c' hc')
    · intro c' hc'
      rcases mem_append_ite.mp hc' with hold | ⟨haccepted, rfl⟩
      · refine (h.accepted c' hold).imp id ?_
        rintro ⟨x, hx, howes⟩
        rcases Rows.eq_or_mem_set hget hx with rfl | hmem
        · obtain ⟨w, hmem, hc, haccepted⟩ := howes
          rcases Rows.eq_or_mem_set hitem hmem with rfl | hmem
          · cases haccepted
          · exact ⟨_, Rows.mem_set_self hget, w, hmem, hc, haccepted⟩
        · exact ⟨x, hmem, howes⟩
      · exact .inr ⟨_, Rows.mem_set_self hget, _, Rows.mem_set_self hitem, rfl, haccepted⟩
    · exact h.forall_sound_set hget (List.ne_nil_of_mem (contactId_mem_pending hw))
        (hd.work hitem htried rfl rfl rfl)
  case h_2 => exact h

/-- A dispatch whose worker has written the row of its contact. -/
theorem Sound.logOutreach (h : s.Sound d) (hitem : d.working[item]? = some ⟨c, some outcome⟩)
    (hlogged : ∀ c', s'.logged c' = true → s.logged c' = true ∨ c' = c)
    (hattempted : s'.attempted = s.attempted) (haccepted : s'.accepted = s.accepted) :
    s'.Sound { d with working := d.working.eraseIdx item } := by
  have hw : Work.mk c (some outcome) ∈ d.working := List.mem_of_getElem? hitem
  have hmem_erase : ∀ {w}, w ∈ d.working.eraseIdx item ↔ w ∈ d.working ∧ w.contactId ≠ c :=
    Rows.mem_eraseIdx_iff h.nodup_working hitem
  have hsublist : (Dispatch.pending { d with working := d.working.eraseIdx item }).Sublist d.pending :=
    ((List.eraseIdx_sublist _ _).map _).append_left _
  refine ⟨?_, hsublist.nodup h.nodup, ?_, haccepted ▸ h.rest, ?_⟩
  · intro hunread
    rw [h.unread hunread] at hw
    cases hw
  · intro c' hc'
    rw [← Bool.not_eq_true]
    intro hrow
    rcases hlogged c' hrow with hold | rfl
    · rw [h.fresh c' (hsublist.mem hc')] at hold
      cases hold
    · rcases List.mem_append.mp hc' with hrest | hworking
      · exact h.not_mem_rest hw hrest
      · obtain ⟨w, hmem, heq⟩ := List.mem_map.mp hworking
        exact (hmem_erase.mp hmem).2 heq
  · intro w hmem
    obtain ⟨htaken, hunsent⟩ := h.working w (hmem_erase.mp hmem).1
    exact ⟨hattempted ▸ htaken, haccepted ▸ hunsent⟩

/-- The row of a worker. -/
theorem Inv.logOutreach (h : s.Inv) (hget : s.dispatches[index]? = some d) {fails : Bool}
    (hcareful : fails = true → ∀ w ∈ d.working[item]?, w.accepted = false) :
    (s.logOutreach index item d fails).Inv := by
  have hd := h.sound d (List.mem_of_getElem? hget)
  rw [State.logOutreach]
  split
  case h_1 c outcome hitem =>
    have hw : Work.mk c (some outcome) ∈ d.working := List.mem_of_getElem? hitem
    have hnonempty : d.pending ≠ [] := List.ne_nil_of_mem (contactId_mem_pending hw)
    have hlogged : ∀ c', State.logged { s.setDispatch index { d with working := d.working.eraseIdx item } with
        log := s.log ++ (if fails then [] else [⟨c, outcome.status⟩]) } c' = true ↔
          s.logged c' = true ∨ fails = false ∧ c' = c := by
      intro c'
      rw [State.logged, List.any_append, Bool.or_eq_true]
      refine or_congr Iff.rfl ?_
      cases fails with
      | true => simp
      | false => simp [@eq_comm _ c']
    refine ⟨h.once, ?_, ?_, alone_set h.alone hget fun hnil => absurd hnil hnonempty, ?_⟩
    · intro c' hc'
      rcases (hlogged c').mp hc' with hold | ⟨-, rfl⟩
      · exact h.logged c' hold
      · exact (hd.working _ hw).attempted rfl
    · intro c' hc'
      rw [hlogged]
      rcases h.accepted c' hc' with hold | ⟨x, hx, howes⟩
      · exact .inl (.inl hold)
      · rcases Rows.eq_or_mem_set hget hx with rfl | hmem
        · obtain ⟨w, hmem, rfl, haccepted⟩ := howes
          by_cases heq : w.contactId = c
          · obtain rfl := Rows.eq_of_key_eq hd.nodup_working hmem hw heq
            refine .inl (.inr ⟨?_, rfl⟩)
            rw [← Bool.not_eq_true]
            intro hfails
            rw [hcareful hfails _ hitem] at haccepted
            cases haccepted
          · have hleft := (Rows.mem_eraseIdx_iff hd.nodup_working hitem).mpr ⟨hmem, heq⟩
            exact .inr ⟨_, Rows.mem_set_self hget, w, hleft, rfl, haccepted⟩
        · exact .inr ⟨x, hmem, howes⟩
    · exact h.forall_sound_set hget hnonempty
        (hd.logOutreach hitem (fun c' hrow => ((hlogged c').mp hrow).imp id And.right) rfl rfl)
  case h_2 => exact h

end Worker

theorem Inv.on (h : s.Inv) {index : Nat} {f : Dispatch → State}
    (hf : ∀ d, s.dispatches[index]? = some d → (f d).Inv) : (s.on index f).Inv := by
  rw [State.on]
  cases hget : s.dispatches[index]? with
  | none => exact h
  | some d => exact hf d hget

theorem Inv.step (h : s.Inv) {i : Input} (hcareful : s.Careful i) : (s.step i).Inv := by
  cases i with
  | launchCampaign hasAdapter => exact h.launch hasAdapter
  | launchCampaignV2 kafka => exact h.launchV2 kafka
  | fallback hasAdapter =>
      rw [State.step]
      split
      · exact h
      · have hcounted : ({ s with fallbacks := s.fallbacks - 1 } : State).Inv := h.congr rfl rfl rfl rfl
        exact hcounted.launch hasAdapter
  | select index fails => exact h.on fun d hget => h.select hget hcareful
  | take index => exact h.on fun d hget => h.take hget
  | work index item decrypts dnd now result =>
      exact h.on fun d hget => h.work hget fun hw => hcareful ⟨d, hget, hw⟩
  | logOutreach index item fails => exact h.on fun d hget => h.logOutreach hget fun hfails => hcareful hfails d hget
  | stop index =>
      refine h.on fun d hget => ?_
      rw [State.stop]
      split
      case isTrue hstop => exact h.complete hget hstop.2.2
      case isFalse => exact h
  | finish index =>
      refine h.on fun d hget => ?_
      rw [State.finish]
      split
      case isTrue hend => exact h.complete hget hend.2.2
      case isFalse => exact h
  | pauseCampaign =>
      rw [State.step, State.pauseCampaign]
      split
      · exact (h.cancel _).congr rfl rfl rfl rfl
      · exact h
  | requestEnds index => exact h.cancel index
  | setStatus status => exact h.congr rfl rfl rfl rfl

end State

/-! ### The runs -/

open State

def twoContacts : { contacts : List String // contacts.Nodup } := ⟨["C1", "C2"], by decide⟩

/-- Noon in Nigeria. -/
def noon : Nat := 39600

/-- The first contact is sent its message, the dispatch is cancelled, and a second one goes on with the other. -/
def pausedAndRelaunched : List Input :=
  [.launchCampaign true, .select 0 false, .take 0, .work 0 0 true false noon .pending, .logOutreach 0 0 false,
    .pauseCampaign, .stop 0, .setStatus .active, .launchCampaign true, .select 1 false, .take 1,
    .work 1 0 true false noon .delivered, .logOutreach 1 0 false, .finish 1]

/-- The campaign is launched twice, and the second dispatch reads its contacts before the first has sent. -/
def launchedTwice : List Input :=
  [.launchCampaign true, .launchCampaign true, .select 0 false, .select 1 false, .take 0, .take 1,
    .work 0 0 true false noon .delivered, .work 1 0 true false noon .delivered]

/-- At nine in the evening the contact is put off. -/
def launchedAtNight : List Input :=
  [.launchCampaign true, .select 0 false, .take 0, .work 0 0 true false (noon + 9 * 3600) .delivered,
    .logOutreach 0 0 false]

end Inec.Outreach
