import Inec.Lib.Expiring
import Inec.Lib.Runs
import Inec.Results.Submit
import Inec.Settlement.Request
import Mathlib.Tactic.IntervalCases

/-!
# Envelopes of devices

device_gateway.go. An envelope that has passed the checks on its form and its device is looked up in Redis by
the hash of its nonce; if the key is not there the gateway writes it, has the signature verified and inserts the
envelope into the inbox. A key that is there answers the envelope as a replay, and so does a unique constraint
of the inbox. An insert that fails for another reason deletes the key "so a legitimate retry is not mistaken for
a replay". These are calls of their own to Redis, to the verifier and to the database. Requests are numbered,
and each is somewhere between them.

The inbox keeps its constraints in every run. The key stands for an envelope in the inbox only as long as every
request that wrote one either persists the envelope or deletes the key: a verifier that fails after the key was
written does neither.

The clock counts seconds. A key of Redis ends in the hash of the nonce, which has a fixed length, so that the
device and the hash can be read off it; the pair of them stands for the key.
-/

namespace Inec

structure DeviceEnvelope where
  deviceId : String
  sequence : Nat
  nonceHash : String
  payloadHash : String
  deriving DecidableEq, Repr

/-- What the nonce is recorded under. -/
abbrev NonceKey : Type := String × String

def DeviceEnvelope.key (e : DeviceEnvelope) : NonceKey := (e.deviceId, e.nonceHash)

/-- A row of `bvas_device_gateway_inbox`, with the columns its constraints are on. -/
structure InboxRow where
  deviceId : String
  sequence : Nat
  nonceHash : String
  envelopeHash : String
  deriving DecidableEq, Repr

namespace InboxRow

variable (row : InboxRow)

def nonceKey : NonceKey := (row.deviceId, row.nonceHash)

def sequenceKey : String × Nat := (row.deviceId, row.sequence)

end InboxRow

def DeviceEnvelope.row (e : DeviceEnvelope) (hash : String) : InboxRow :=
  ⟨e.deviceId, e.sequence, e.nonceHash, hash⟩

/-- `deviceVerificationResponse`, of an answer that could be decoded. -/
structure DeviceVerification where
  status : Nat
  valid : Bool
  envelopeHash : String
  payloadHash : String
  deriving DecidableEq, Repr

/-- The hash of the envelope, if the verifier answers and the handler goes on with its answer. -/
def verifiedHash (e : DeviceEnvelope) (answer : Option DeviceVerification) : Option String :=
  answer.bind fun v =>
    if v.status = 200 ∧ v.valid ∧ v.payloadHash = e.payloadHash ∧ (normalizeLowerHex64 v.envelopeHash).isOk then
      some v.envelopeHash
    else none

/-- `strings.ToLower` where the outcome is compared with ASCII letters: two other characters have such a lower
case. -/
def lowerText (s : String) : String :=
  String.ofList (s.toList.map fun c => if c.toNat = 0x130 then 'i' else if c.toNat = 0x212A then 'k' else c.toLower)

/-- Whether the handler takes the failure of an insert for a replay. -/
def isReplayError (text : String) : Bool := containsText text "UNIQUE" ||
      containsText (lowerText text) "duplicate key"

/-- What the insert returns for a row that breaks a constraint. -/
def uniqueViolation : String :=
  "persist immutable device inbox: ERROR: duplicate key value violates unique constraint (SQLSTATE 23505)"

theorem isReplayError_uniqueViolation : isReplayError uniqueViolation = true := by
  rw [isReplayError, Bool.or_eq_true]
  right
  -- the lower-case text is a list of characters already
  rw [containsText, lowerText, String.toList_ofList]
  decide +kernel

def deviceGatewayNonceTTL : Nat := 30 * 60

/-- How far a request is. -/
inductive EnvelopePhase
  | idle
  | admitted (e : DeviceEnvelope)
  | checked (e : DeviceEnvelope)
  | acquired (e : DeviceEnvelope)
  | verified (e : DeviceEnvelope) (hash : String)
  | unpersisted (e : DeviceEnvelope)
  | accepted (e : DeviceEnvelope)
  | replayed (e : DeviceEnvelope)
  | failed (e : DeviceEnvelope)
  deriving DecidableEq

/-- The key of a request between writing it and the end of its processing. -/
def EnvelopePhase.holding? : EnvelopePhase → Option NonceKey
  | acquired e => some e.key
  | verified e _ => some e.key
  | unpersisted e => some e.key
  | _ => none

structure Gateway where
  now : Nat
  nonces : NonceKey → Option Nat
  inbox : List InboxRow
  phase : Nat → EnvelopePhase

/-- One step of the clock or of a numbered request, with what the call of the step comes to. A request that is
not admitted ends before the nonce is looked up. -/
inductive GatewayAct
  | tick (elapsed : Nat)
  | present (request : Nat) (e : DeviceEnvelope) (admitted : Bool)
  | get (request : Nat) (redisUp : Bool)
  | set (request : Nat) (ok : Bool)
  | verify (request : Nat) (answer : Option DeviceVerification)
  | persist (request : Nat) (fault : Option String)
  | release (request : Nat) (ok : Bool)

namespace Gateway

def start (now : Nat) : Gateway := ⟨now, fun _ => none, [], fun _ => .idle⟩

variable (s : Gateway)

def setPhase (request : Nat) (p : EnvelopePhase) : Gateway := { s with phase := Function.update s.phase request p }

/-- Redis still has the key. -/
def live (key : NonceKey) : Bool := (s.nonces key).any fun expiry => decide (s.now < expiry)

/-- The insert breaks one of the three constraints. -/
def conflicts (e : DeviceEnvelope) (hash : String) : Bool :=
  s.inbox.any fun row =>
    row.sequenceKey = (e.deviceId, e.sequence) || row.nonceKey = e.key || row.envelopeHash = hash

/-- The error of `persistDeviceGatewayEnvelope`. A fault is one of any of its other statements. -/
def persistError (e : DeviceEnvelope) (hash : String) (fault : Option String) : Option String :=
  fault <|> if s.conflicts e hash then some uniqueViolation else none

/-- `required` is `externalDeviceGatewayRequired`. -/
def step (required : Bool) (s : Gateway) : GatewayAct → Gateway
  | .tick elapsed => { s with now := s.now + elapsed }
  | .present request e admitted =>
      match s.phase request with
      | .idle => s.setPhase request (if admitted then .admitted e else .failed e)
      | _ => s
  | .get request redisUp =>
      match s.phase request with
      | .admitted e =>
          if redisUp && s.live e.key then s.setPhase request (.replayed e)
          -- the client returns an error for a key that is not there, as it does when Redis is away
          else if required then s.setPhase request (.failed e)
          else s.setPhase request (.checked e)
      | _ => s
  | .set request ok =>
      match s.phase request with
      | .checked e =>
          if ok then
            { s with
              nonces := Expiring.put s.nonces e.key (s.now + deviceGatewayNonceTTL)
              phase := Function.update s.phase request (.acquired e) }
          else if required then s.setPhase request (.failed e)
          else s.setPhase request (.acquired e)
      | _ => s
  | .verify request answer =>
      match s.phase request with
      | .acquired e =>
          match verifiedHash e answer with
          | some hash => s.setPhase request (.verified e hash)
          | none => s.setPhase request (.failed e)
      | _ => s
  | .persist request fault =>
      match s.phase request with
      | .verified e hash =>
          match s.persistError e hash fault with
          | some text => s.setPhase request (if isReplayError text then .replayed e else .unpersisted e)
          | none =>
              { s with inbox := s.inbox ++ [e.row hash], phase := Function.update s.phase request (.accepted e) }
      | _ => s
  | .release request ok =>
      match s.phase request with
      | .unpersisted e =>
          { s with
            nonces := if ok then Function.update s.nonces e.key none else s.nonces
            phase := Function.update s.phase request (.failed e) }
      | _ => s

/-- The inbox has an envelope of the device with this nonce. -/
def NonceRecorded (key : NonceKey) : Prop := ∃ row ∈ s.inbox, row.nonceKey = key

/-- Redis has the key of a nonce that is not in the inbox. -/
def Burnt (key : NonceKey) : Prop := s.live key = true ∧ ¬s.NonceRecorded key

/-- The inbox has an envelope of the device with the nonce or the sequence number of this one. -/
def Recorded (e : DeviceEnvelope) : Prop :=
  ∃ row ∈ s.inbox, row.deviceId = e.deviceId ∧ (row.nonceHash = e.nonceHash ∨ row.sequence = e.sequence)

end Gateway

/-! ### What the gateway promises -/

def UniqueInbox (s : Gateway) : Prop :=
  (s.inbox.map InboxRow.sequenceKey).Nodup ∧ (s.inbox.map InboxRow.nonceKey).Nodup

/-- A replay is only found where something was persisted. -/
def ReplaysRecorded (s : Gateway) : Prop := ∀ request e, s.phase request = .replayed e → s.Recorded e

/-- The steps of a request that meets no failure. -/
def resend (request : Nat) (e : DeviceEnvelope) (answer : DeviceVerification) : List GatewayAct :=
  [.present request e true, .get request true, .set request true, .verify request (some answer),
    .persist request none]

/-- An envelope that has failed, that is not being processed by another request and of which nothing is in the
inbox is accepted when it is sent again and nothing fails. -/
def Resendable (required : Bool) (s : Gateway) : Prop :=
  ∀ request e, s.phase request = .failed e → (∀ other, (s.phase other).holding? ≠ some e.key) → ¬s.Recorded e →
    ∀ free answer hash, s.phase free = .idle → verifiedHash e (some answer) = some hash →
      (∀ row ∈ s.inbox, row.envelopeHash ≠ hash) →
      (Runs.final (Gateway.step required) s (resend free e answer)).phase free = .accepted e

/-- No request ends with a key in Redis that it wrote and a nonce that is not in the inbox, and none looks a key
up while another one has written it and is not done. The database reports a broken constraint only for an
envelope it has. -/
def KeysStandForRows (s : Gateway) : GatewayAct → Prop
  | .get request redisUp => ∀ e, s.phase request = .admitted e → redisUp = true → s.live e.key = true →
      ∀ other, (s.phase other).holding? ≠ some e.key
  | .verify request answer => ∀ e, s.phase request = .acquired e → verifiedHash e answer = none → ¬s.Burnt e.key
  | .persist request (some text) => ∀ e hash, s.phase request = .verified e hash → isReplayError text = true →
      s.NonceRecorded e.key
  | .persist request none => ∀ e hash, s.phase request = .verified e hash → s.conflicts e hash = true →
      ¬s.Burnt e.key ∧ ∀ row ∈ s.inbox, row.envelopeHash = hash →
        row.deviceId = e.deviceId ∧ (row.nonceHash = e.nonceHash ∨ row.sequence = e.sequence)
  | .release request ok => ∀ e, s.phase request = .unpersisted e → ok = false → ¬s.Burnt e.key
  | _ => True

/-! ### The constraints of the inbox -/

section Unique

variable {s : Gateway} {e : DeviceEnvelope} {hash : String}

theorem Gateway.persistError_eq_none {fault : Option String} (h : s.persistError e hash fault = none) :
    s.conflicts e hash = false := by
  cases fault with
  | some text => cases h
  | none =>
      cases hconflicts : s.conflicts e hash with
      | false => rfl
      | true =>
          rw [Gateway.persistError, hconflicts] at h
          cases h

theorem UniqueInbox.insert (h : UniqueInbox s) (hfree : s.conflicts e hash = false) (phase : Nat → EnvelopePhase) :
    UniqueInbox { s with inbox := s.inbox ++ [e.row hash], phase := phase } := by
  have hnone : ∀ row ∈ s.inbox, row.sequenceKey ≠ (e.deviceId, e.sequence) ∧ row.nonceKey ≠ e.key := by
    intro row hrow
    have hrow := List.any_eq_false.mp hfree row hrow
    simp only [Bool.or_eq_true, decide_eq_true_eq, not_or] at hrow
    exact hrow.1
  refine ⟨Rows.nodup_map_append_singleton h.1 ?_, Rows.nodup_map_append_singleton h.2 ?_⟩
  · intro hmem
    obtain ⟨row, hrow, heq⟩ := List.mem_map.mp hmem
    exact (hnone row hrow).1 heq
  · intro hmem
    obtain ⟨row, hrow, heq⟩ := List.mem_map.mp hmem
    exact (hnone row hrow).2 heq

end Unique

theorem uniqueInbox_step (required : Bool) (s : Gateway) (act : GatewayAct) (h : UniqueInbox s) :
    UniqueInbox (s.step required act) := by
  cases act with
  | tick elapsed => exact h
  | present request e admitted =>
      simp only [Gateway.step]
      split <;> exact h
  | get request redisUp =>
      simp only [Gateway.step]
      split
      · split
        · exact h
        · split <;> exact h
      · exact h
  | set request ok =>
      simp only [Gateway.step]
      split
      · split
        · exact h
        · split <;> exact h
      · exact h
  | verify request answer =>
      simp only [Gateway.step]
      split
      · split <;> exact h
      · exact h
  | persist request fault =>
      simp only [Gateway.step]
      split
      case h_1 e hash _ =>
        split
        case h_1 => exact h
        case h_2 hnone => exact h.insert (Gateway.persistError_eq_none hnone) _
      case h_2 => exact h
  | release request ok =>
      simp only [Gateway.step]
      split <;> exact h

/-! ### Keys and rows -/

structure Gateway.Sound (s : Gateway) : Prop where
  /-- A key that is there has its nonce in the inbox, or the request that wrote it is not done. -/
  keys : ∀ key, s.live key = true → s.NonceRecorded key ∨ ∃ request, (s.phase request).holding? = some key
  replays : ReplaysRecorded s

section Sound

variable {s t : Gateway} {request : Nat} {p : EnvelopePhase} {e : DeviceEnvelope}

theorem Gateway.NonceRecorded.recorded (h : s.NonceRecorded e.key) : s.Recorded e := by
  obtain ⟨row, hrow, hkey⟩ := h
  obtain ⟨hdevice, hnonce⟩ := Prod.mk.inj hkey
  exact ⟨row, hrow, hdevice, .inl hnonce⟩

/-- One request moves on. The keys that are there are old ones or its own, and it only lets go of a key whose
nonce is in the inbox. -/
theorem Gateway.Sound.move (h : s.Sound) (hphase : t.phase = Function.update s.phase request p)
    (hinbox : ∀ row ∈ s.inbox, row ∈ t.inbox)
    (hlive : ∀ key, t.live key = true → s.live key = true ∨ p.holding? = some key)
    (hkeep : ∀ key, (s.phase request).holding? = some key → t.live key = true →
      t.NonceRecorded key ∨ p.holding? = some key)
    (hreplay : ∀ e, p = .replayed e → t.Recorded e) : t.Sound := by
  have hself : t.phase request = p := by rw [hphase, Function.update_self]
  have hother : ∀ other, other ≠ request → t.phase other = s.phase other := by
    intro other hne
    rw [hphase, Function.update_of_ne hne]
  refine ⟨?_, ?_⟩
  · intro key hkey
    rcases hlive key hkey with hold | hnew
    · rcases h.keys key hold with hrow | ⟨holder, hholder⟩
      · obtain ⟨row, hrow, heq⟩ := hrow
        exact .inl ⟨row, hinbox row hrow, heq⟩
      · by_cases heq : holder = request
        · rcases hkeep key (heq ▸ hholder) hkey with hrow | hp
          · exact .inl hrow
          · exact .inr ⟨request, hself ▸ hp⟩
        · exact .inr ⟨holder, hother holder heq ▸ hholder⟩
    · exact .inr ⟨request, hself ▸ hnew⟩
  · intro other e hreplayed
    by_cases heq : other = request
    · rw [heq, hself] at hreplayed
      exact hreplay e hreplayed
    · rw [hother other heq] at hreplayed
      obtain ⟨row, hrow, hmatch⟩ := h.replays other e hreplayed
      exact ⟨row, hinbox row hrow, hmatch⟩

/-- A request that keeps what it holds, or had not written a key. -/
theorem Gateway.Sound.setPhase (h : s.Sound)
    (hkeep : ∀ key, (s.phase request).holding? = some key → ¬s.Burnt key ∨ p.holding? = some key)
    (hreplay : ∀ e, p = .replayed e → s.Recorded e) : (s.setPhase request p).Sound := by
  refine h.move rfl (fun _ hrow => hrow) (fun _ hkey => .inl hkey) ?_ hreplay
  intro key hholding hlive
  rcases hkeep key hholding with hburnt | hp
  · exact .inl (by_contra fun hrow => hburnt ⟨hlive, hrow⟩)
  · exact .inr hp

/-- A live key that no other request holds has its nonce in the inbox. -/
theorem Gateway.Sound.nonceRecorded (h : s.Sound) {key : NonceKey} (hlive : s.live key = true)
    (hfree : ∀ other, (s.phase other).holding? ≠ some key) : s.NonceRecorded key := by
  rcases h.keys key hlive with hrow | ⟨holder, hholder⟩
  · exact hrow
  · exact absurd hholder (hfree holder)

theorem Gateway.Sound.tick (h : s.Sound) (elapsed : Nat) : Gateway.Sound { s with now := s.now + elapsed } := by
  refine ⟨?_, h.replays⟩
  intro key hlive
  apply h.keys key
  obtain ⟨expiry, hexpiry, hnow⟩ := (Option.any_eq_true _ _).mp hlive
  refine (Option.any_eq_true _ _).mpr ⟨expiry, hexpiry, ?_⟩
  simp only [decide_eq_true_eq] at hnow ⊢
  omega

/-- The key a request writes is its own. -/
theorem Gateway.Sound.acquire (h : s.Sound) (hphase : s.phase request = .checked e) (expiry : Nat) :
    Gateway.Sound
      { s with nonces := Expiring.put s.nonces e.key expiry, phase := Function.update s.phase request (.acquired e) } := by
  refine h.move rfl (fun _ hrow => hrow) ?_ ?_ (fun _ hne => (nomatch hne))
  · intro key hlive
    by_cases heq : key = e.key
    · exact .inr (by rw [heq]; rfl)
    · refine .inl ?_
      simp only [Gateway.live, Expiring.put_of_ne heq] at hlive
      exact hlive
  · intro key hholding
    rw [hphase] at hholding
    cases hholding

/-- A conflict is found on the nonce or the sequence number, or with an envelope of the same hash. -/
theorem Gateway.recorded_of_conflicts {hash : String} (h : s.conflicts e hash = true)
    (hhash : ∀ row ∈ s.inbox, row.envelopeHash = hash →
      row.deviceId = e.deviceId ∧ (row.nonceHash = e.nonceHash ∨ row.sequence = e.sequence)) : s.Recorded e := by
  obtain ⟨row, hrow, hmatch⟩ := List.any_eq_true.mp h
  simp only [Bool.or_eq_true, decide_eq_true_eq] at hmatch
  refine ⟨row, hrow, ?_⟩
  rcases hmatch with (hsequence | hnonce) | heq
  · obtain ⟨hdevice, hsequence⟩ := Prod.mk.inj hsequence
    exact ⟨hdevice, .inr hsequence⟩
  · obtain ⟨hdevice, hnonce⟩ := Prod.mk.inj hnonce
    exact ⟨hdevice, .inl hnonce⟩
  · exact hhash row hrow heq

/-- A row for the nonce of a request that is done. -/
theorem Gateway.Sound.accept {hash : String} (h : s.Sound) (hphase : s.phase request = .verified e hash) :
    Gateway.Sound { s with inbox := s.inbox ++ [e.row hash], phase := Function.update s.phase request (.accepted e) } := by
  refine h.move rfl (fun _ => List.mem_append_left _) (fun _ hlive => .inl hlive) ?_ (fun _ hne => (nomatch hne))
  intro key hholding _
  rw [hphase] at hholding
  obtain rfl := Option.some.inj hholding
  exact .inl ⟨e.row hash, List.mem_append_right _ (List.mem_singleton_self _), rfl⟩

theorem Gateway.Sound.release (h : s.Sound) (hphase : s.phase request = .unpersisted e) {ok : Bool}
    (hcond : ok = false → ¬s.Burnt e.key) :
    Gateway.Sound
      { s with
        nonces := if ok then Function.update s.nonces e.key none else s.nonces
        phase := Function.update s.phase request (.failed e) } := by
  cases ok with
  | false =>
      refine h.setPhase ?_ (fun _ hne => (nomatch hne))
      intro key hholding
      rw [hphase] at hholding
      obtain rfl := Option.some.inj hholding
      exact .inl (hcond rfl)
  | true =>
      refine h.move rfl (fun _ hrow => hrow) ?_ ?_ (fun _ hne => (nomatch hne))
      · intro key hlive
        by_cases heq : key = e.key
        · rw [heq] at hlive
          simp [Gateway.live] at hlive
        · refine .inl ?_
          simp only [Gateway.live, if_true, Function.update_of_ne heq] at hlive
          exact hlive
      · intro key hholding hlive
        rw [hphase] at hholding
        obtain rfl := Option.some.inj hholding
        simp [Gateway.live] at hlive

end Sound

theorem gatewayStep_sound (s : Gateway) (act : GatewayAct) (h : s.Sound) (hcond : KeysStandForRows s act) :
    (s.step false act).Sound := by
  cases act with
  | tick elapsed => exact h.tick elapsed
  | present request e admitted =>
      simp only [Gateway.step]
      split
      case h_1 hphase =>
        refine h.setPhase ?_ ?_
        · intro key hholding
          rw [hphase] at hholding
          cases hholding
        · intro e' heq
          split at heq <;> cases heq
      case h_2 => exact h
  | get request redisUp =>
      simp only [Gateway.step]
      split
      case h_1 e hphase =>
        have hkeep : ∀ (p : EnvelopePhase) key, (s.phase request).holding? = some key → ¬s.Burnt key ∨
            p.holding? = some key := by
          intro p key hholding
          rw [hphase] at hholding
          cases hholding
        split
        case isTrue hlive =>
          obtain ⟨hup, hlive⟩ := Bool.and_eq_true_iff.mp hlive
          refine h.setPhase (hkeep _) ?_
          intro e' heq
          obtain rfl := EnvelopePhase.replayed.inj heq
          exact (h.nonceRecorded hlive (hcond e hphase hup hlive)).recorded
        case isFalse => exact h.setPhase (hkeep _) (by intro _ hne; cases hne)
      case h_2 => exact h
  | set request ok =>
      simp only [Gateway.step]
      split
      case h_1 e hphase =>
        split
        · exact h.acquire hphase _
        · refine h.setPhase ?_ (by intro _ hne; cases hne)
          intro key hholding
          rw [hphase] at hholding
          cases hholding
      case h_2 => exact h
  | verify request answer =>
      simp only [Gateway.step]
      split
      case h_1 e hphase =>
        split
        case h_1 =>
          exact h.setPhase (fun key hholding => .inr (by rwa [hphase] at hholding)) (by intro _ hne; cases hne)
        case h_2 hnone =>
          refine h.setPhase ?_ (by intro _ hne; cases hne)
          intro key hholding
          rw [hphase] at hholding
          obtain rfl := Option.some.inj hholding
          exact .inl (hcond e hphase hnone)
      case h_2 => exact h
  | persist request fault =>
      simp only [Gateway.step]
      split
      case h_1 e hash hphase =>
        split
        case h_1 text herror =>
          split
          case isTrue hreplay =>
            -- the constraint that was broken, or a text that reads as if one had been
            have hends : ¬s.Burnt e.key ∧ s.Recorded e := by
              cases fault with
              | some text' =>
                  obtain rfl : text' = text := Option.some.inj herror
                  have hrow := hcond e hash hphase hreplay
                  exact ⟨fun hburnt => hburnt.2 hrow, hrow.recorded⟩
              | none =>
                  have hconflicts : s.conflicts e hash = true := by
                    by_contra hfree
                    rw [Gateway.persistError, if_neg hfree] at herror
                    cases herror
                  obtain ⟨hburnt, hhash⟩ := hcond e hash hphase hconflicts
                  exact ⟨hburnt, Gateway.recorded_of_conflicts hconflicts hhash⟩
            refine h.setPhase ?_ ?_
            · intro key hholding
              rw [hphase] at hholding
              obtain rfl := Option.some.inj hholding
              exact .inl hends.1
            · intro e' heq
              obtain rfl := EnvelopePhase.replayed.inj heq
              exact hends.2
          case isFalse =>
            exact h.setPhase (fun key hholding => .inr (by rwa [hphase] at hholding)) (by intro _ hne; cases hne)
        case h_2 => exact h.accept hphase
      case h_2 => exact h
  | release request ok =>
      simp only [Gateway.step]
      split
      case h_1 e hphase => exact h.release hphase (hcond e hphase)
      case h_2 => exact h

theorem gatewayStart_sound (now : Nat) : (Gateway.start now).Sound :=
  ⟨fun _ hlive => (nomatch hlive), fun _ _ hreplayed => (nomatch hreplayed)⟩

/-! ### Sending again -/

section Resend

variable {s : Gateway} {request free : Nat} {e : DeviceEnvelope} {answer : DeviceVerification} {hash : String}

@[simp] theorem Gateway.setPhase_phase_self (s : Gateway) (request : Nat) (p : EnvelopePhase) :
    (s.setPhase request p).phase request = p := Function.update_self ..

theorem Gateway.setPhase_phase_of_ne (p : EnvelopePhase) {other : Nat} (h : other ≠ request) :
    (s.setPhase request p).phase other = s.phase other := Function.update_of_ne h ..

@[simp] theorem Gateway.setPhase_live (s : Gateway) (request : Nat) (p : EnvelopePhase) :
    (s.setPhase request p).live = s.live := rfl

@[simp] theorem Gateway.setPhase_inbox (s : Gateway) (request : Nat) (p : EnvelopePhase) :
    (s.setPhase request p).inbox = s.inbox := rfl

theorem Gateway.conflicts_eq_false (hrecorded : ¬s.Recorded e) (hhash : ∀ row ∈ s.inbox, row.envelopeHash ≠ hash) :
    s.conflicts e hash = false := by
  rw [← Bool.not_eq_true]
  intro hconflicts
  apply hrecorded
  apply Gateway.recorded_of_conflicts hconflicts
  intro row hrow heq
  exact absurd heq (hhash row hrow)

theorem Gateway.step_set_true (required : Bool) (hphase : s.phase request = .checked e) :
    (s.step required (.set request true)).phase request = .acquired e ∧
      (s.step required (.set request true)).inbox = s.inbox := by
  simp [Gateway.step, hphase]

theorem Gateway.step_verify_of_some (required : Bool) (hphase : s.phase request = .acquired e)
    (hhash : verifiedHash e (some answer) = some hash) :
    s.step required (.verify request (some answer)) = s.setPhase request (.verified e hash) := by
  simp [Gateway.step, hphase, hhash]

theorem Gateway.step_persist_accepted (required : Bool) (hphase : s.phase request = .verified e hash)
    (hfree : s.conflicts e hash = false) : (s.step required
      (.persist request none)).phase request = .accepted e := by
  simp [Gateway.step, hphase, Gateway.persistError, hfree]

/-- Without a key in the way, an envelope passes to the inbox. -/
theorem resend_accepted (hidle : s.phase free = .idle) (hlive : s.live e.key = false)
    (hhash : verifiedHash e (some answer) = some hash) (hfree : s.conflicts e hash = false) :
    (Runs.final (Gateway.step false) s (resend free e answer)).phase free = .accepted e := by
  have hpresent : s.step false (.present free e true) = s.setPhase free (.admitted e) := by
    simp [Gateway.step, hidle]
  have hget : (s.setPhase free (.admitted e)).step false (.get free true) =
      (s.setPhase free (.admitted e)).setPhase free (.checked e) := by
    simp [Gateway.step, hlive]
  rw [resend, Runs.final_cons, Runs.final_cons, hpresent, hget]
  generalize hs : (s.setPhase free (.admitted e)).setPhase free (.checked e) = t
  have hchecked : t.phase free = .checked e := by rw [← hs, Gateway.setPhase_phase_self]
  have hset := Gateway.step_set_true false hchecked
  rw [Runs.final_cons, Runs.final_cons, Gateway.step_verify_of_some false hset.1 hhash]
  refine Gateway.step_persist_accepted false (Gateway.setPhase_phase_self ..) ?_
  rw [Gateway.conflicts, Gateway.setPhase_inbox, hset.2, ← hs]
  exact hfree

end Resend

/-- Whatever fails, the inbox keeps its constraints. Where every key stands for a row or for a request that is
not done, replays are found only of what was persisted, and what has failed can be sent again. -/
theorem replays_and_resends (required : Bool) (now : Nat) (acts : List GatewayAct) :
    (∀ s ∈ Runs.visited (Gateway.step required) (.start now) acts, UniqueInbox s) ∧
      (required = false → Runs.AllSteps (Gateway.step required) KeysStandForRows (.start now) acts →
        ∀ s ∈ Runs.visited (Gateway.step required) (.start now) acts, ReplaysRecorded s ∧
          Resendable required s) := by
  refine ⟨?_, ?_⟩
  · have hstart : UniqueInbox (.start now) := ⟨List.nodup_nil, List.nodup_nil⟩
    exact Runs.forall_visited_of_step (uniqueInbox_step required) hstart acts
  · rintro rfl hsteps s hs
    have hsound := Runs.forall_visited gatewayStep_sound (gatewayStart_sound now) hsteps s hs
    refine ⟨hsound.replays, ?_⟩
    intro request e _ hfree hrecorded free answer hash hidle hhash hnew
    refine resend_accepted hidle ?_ hhash (Gateway.conflicts_eq_false hrecorded hnew)
    by_contra hlive
    rw [Bool.not_eq_false] at hlive
    exact hrecorded (hsound.nonceRecorded hlive hfree).recorded

section Required

/-- Nothing of this request has gone beyond looking the nonce up. -/
def EnvelopePhase.early : EnvelopePhase → Bool
  | idle => true
  | admitted _ => true
  | replayed _ => true
  | failed _ => true
  | _ => false

theorem requiredStep_early (s : Gateway) (act : GatewayAct)
    (h : s.inbox = [] ∧ ∀ request, (s.phase request).early = true) :
    (s.step true act).inbox = [] ∧ ∀ request, ((s.step true act).phase request).early = true := by
  obtain ⟨hinbox, hearly⟩ := h
  have hmove : ∀ request p, EnvelopePhase.early p = true →
      (s.setPhase request p).inbox = [] ∧ ∀ other, ((s.setPhase request p).phase other).early = true := by
    intro request p hp
    refine ⟨hinbox, fun other => ?_⟩
    by_cases heq : other = request
    · rw [heq, Gateway.setPhase_phase_self]
      exact hp
    · rw [Gateway.setPhase_phase_of_ne p heq]
      exact hearly other
  have hlate : ∀ {request p}, s.phase request = p → EnvelopePhase.early p = false → False := by
    intro request p hphase hp
    have h := hearly request
    rw [hphase, hp] at h
    cases h
  cases act with
  | tick elapsed => exact ⟨hinbox, hearly⟩
  | present request e admitted =>
      simp only [Gateway.step]
      split
      · exact hmove request _ (by cases admitted <;> rfl)
      · exact ⟨hinbox, hearly⟩
  | get request redisUp =>
      simp only [Gateway.step]
      split
      · split
        · exact hmove request _ rfl
        · exact hmove request _ rfl
      · exact ⟨hinbox, hearly⟩
  | set request ok =>
      simp only [Gateway.step]
      split
      case h_1 hphase => exact (hlate hphase rfl).elim
      case h_2 => exact ⟨hinbox, hearly⟩
  | verify request answer =>
      simp only [Gateway.step]
      split
      case h_1 hphase => exact (hlate hphase rfl).elim
      case h_2 => exact ⟨hinbox, hearly⟩
  | persist request fault =>
      simp only [Gateway.step]
      split
      case h_1 hphase => exact (hlate hphase rfl).elim
      case h_2 => exact ⟨hinbox, hearly⟩
  | release request ok =>
      simp only [Gateway.step]
      split
      case h_1 hphase => exact (hlate hphase rfl).elim
      case h_2 => exact ⟨hinbox, hearly⟩

/-- Where the gateway is required no envelope ever gets to the inbox: the key of a new nonce is never there. -/
theorem required_inbox_eq_nil (now : Nat) (acts : List GatewayAct) :
    ∀ s ∈ Runs.visited (Gateway.step true) (.start now) acts, s.inbox = [] := by
  intro s hs
  have hstart : (Gateway.start now).inbox = [] ∧ ∀ request, ((Gateway.start now).phase request).early = true :=
    ⟨rfl, fun _ => rfl⟩
  exact (Runs.forall_visited_of_step requiredStep_early hstart acts s hs).1

end Required

section Samples

def sampleEnvelope : DeviceEnvelope := ⟨"BVAS-1", 1, "n1", "p1"⟩

def sampleAnswer : DeviceVerification := ⟨200, true, String.ofList (List.replicate 64 'a'), "p1"⟩

/-- The database fails; the key is deleted and the device sends the envelope again. -/
def databaseFails : List GatewayAct :=
  (resend 0 sampleEnvelope sampleAnswer).take 4 ++ [.persist 0 (some "driver: bad connection"), .release 0 true] ++
    resend 1 sampleEnvelope sampleAnswer

theorem replays_and_resends_databaseFails :
    (Runs.final (Gateway.step false) (.start 0) databaseFails).phase 0 = .failed sampleEnvelope ∧
      (Runs.final (Gateway.step false) (.start 0) databaseFails).phase 1 = .accepted sampleEnvelope ∧
      ∀ s ∈ Runs.visited (Gateway.step false) (.start 0) databaseFails, ReplaysRecorded s ∧ Resendable false s := by
  let after (n : Nat) := Runs.final (Gateway.step false) (.start 0) (databaseFails.take n)
  have hrun : ((after 1).phase 0 = .admitted sampleEnvelope ∧ (after 1).live sampleEnvelope.key = false) ∧
      ((after 3).phase 0 = .acquired sampleEnvelope ∧ (after 9).phase 1 = .acquired sampleEnvelope ∧
        verifiedHash sampleEnvelope (some sampleAnswer) = some sampleAnswer.envelopeHash) ∧
      isReplayError "driver: bad connection" = false ∧
      ((after 7).phase 1 = .admitted sampleEnvelope ∧ (after 7).live sampleEnvelope.key = false) ∧
      ((after 10).phase 1 = .verified sampleEnvelope sampleAnswer.envelopeHash ∧ (after 10).inbox = []) ∧
      (after 11).phase 0 = .failed sampleEnvelope ∧ (after 11).phase 1 = .accepted sampleEnvelope := by
    decide +kernel
  obtain ⟨⟨hfirst, hfirstLive⟩, ⟨hacquired, hagain, hhash⟩, hfault, ⟨hsecond, hsecondLive⟩,
      ⟨hverified, hempty⟩, hfailed, haccepted⟩ :=
    hrun
  refine ⟨hfailed, haccepted, (replays_and_resends false 0 databaseFails).2 rfl ?_⟩
  apply Runs.allSteps_of_getElem
  intro n hn
  have hn : n < 11 := hn
  interval_cases n
  case «1» =>
    intro e he _ hlive
    obtain rfl := EnvelopePhase.admitted.inj (hfirst.symm.trans he)
    exact absurd hlive (Bool.eq_false_iff.mp hfirstLive)
  case «3» =>
    intro e he hnone
    obtain rfl := EnvelopePhase.acquired.inj (hacquired.symm.trans he)
    cases hhash.symm.trans hnone
  case «4» =>
    intro e hash _ hreplay
    exact absurd hreplay (Bool.eq_false_iff.mp hfault)
  case «5» =>
    intro e _ hfalse
    cases hfalse
  case «7» =>
    intro e he _ hlive
    obtain rfl := EnvelopePhase.admitted.inj (hsecond.symm.trans he)
    exact absurd hlive (Bool.eq_false_iff.mp hsecondLive)
  case «9» =>
    intro e he hnone
    obtain rfl := EnvelopePhase.acquired.inj (hagain.symm.trans he)
    cases hhash.symm.trans hnone
  case «10» =>
    intro e hash he hconflicts
    obtain ⟨row, hrow, -⟩ := List.any_eq_true.mp hconflicts
    rw [hempty] at hrow
    cases hrow
  all_goals exact trivial

/-- The verifier cannot be reached. -/
def verifierFails : List GatewayAct := (resend 0 sampleEnvelope sampleAnswer).take 3 ++ [.verify 0 none]

/-- The device sends the envelope again. -/
def sentAgain : List GatewayAct := verifierFails ++ (resend 1 sampleEnvelope sampleAnswer).take 2

theorem envelope_is_burnt :
    ¬(∀ s ∈ Runs.visited (Gateway.step false) (.start 0) sentAgain, ReplaysRecorded s) ∧
      ¬(∀ s ∈ Runs.visited (Gateway.step false) (.start 0) sentAgain, Resendable false s) ∧
      ¬∀ s ∈ Runs.visited (Gateway.step true) (.start 0) (resend 0 sampleEnvelope sampleAnswer),
        Resendable true s := by
  have hempty : ∀ s : Gateway, s.inbox = [] → ¬s.Recorded sampleEnvelope := by
    rintro s hs ⟨row, hrow, -⟩
    rw [hs] at hrow
    cases hrow
  have hnobody : ∀ s : Gateway, s.phase 0 = .failed sampleEnvelope → (∀ other, other ≠ 0 → s.phase other = .idle) →
      ∀ other, (s.phase other).holding? ≠ some sampleEnvelope.key := by
    intro s hzero hothers other
    by_cases heq : other = 0
    · rw [heq, hzero]
      exact fun h => (nomatch h)
    · rw [hothers other heq]
      exact fun h => (nomatch h)
  let burnt := Runs.final (Gateway.step false) (.start 0) verifierFails
  let required := Runs.final (Gateway.step true) (.start 0) (resend 0 sampleEnvelope sampleAnswer)
  have hrun : ((Runs.final (Gateway.step false) (.start 0) sentAgain).phase 1 = .replayed sampleEnvelope ∧
        (Runs.final (Gateway.step false) (.start 0) sentAgain).inbox = []) ∧
      (burnt.phase 0 = .failed sampleEnvelope ∧ burnt.phase 1 = .idle ∧ burnt.inbox = [] ∧
        (Runs.final (Gateway.step false) burnt
          (resend 1 sampleEnvelope sampleAnswer)).phase 1 ≠ .accepted sampleEnvelope) ∧
      (required.phase 0 = .failed sampleEnvelope ∧ required.phase 1 = .idle ∧ required.inbox = [] ∧
        (Runs.final (Gateway.step true) required
          (resend 1 sampleEnvelope sampleAnswer)).phase 1 ≠ .accepted sampleEnvelope) ∧
      verifiedHash sampleEnvelope (some sampleAnswer) = some sampleAnswer.envelopeHash := by
    decide +kernel
  obtain ⟨⟨hreplayed, hnothing⟩, ⟨hfailed, hidle, hinbox, hagain⟩,
      ⟨hfailed', hidle', hinbox', hagain'⟩, hhash⟩ := hrun
  have hzeros (other : Nat) (hne : other ≠ 0) (p : Nat → EnvelopePhase) (q : EnvelopePhase) :
      Function.update p 0 q other = p other :=
    Function.update_of_ne hne ..
  refine ⟨?_, ?_, ?_⟩
  · intro hall
    exact hempty _ hnothing (hall _ (Runs.final_mem_visited _ _) 1 sampleEnvelope hreplayed)
  · intro hall
    have hothers : ∀ other, other ≠ 0 → burnt.phase other = .idle := by
      intro other hne
      exact (hzeros other hne _ _).trans ((hzeros other hne _ _).trans
        ((hzeros other hne _ _).trans (hzeros other hne _ _)))
    apply hagain
    apply hall burnt (Runs.final_mem_visited_append _ verifierFails _) 0 sampleEnvelope hfailed
      (hnobody _ hfailed hothers) (hempty _ hinbox) 1 sampleAnswer _ hidle hhash
    rw [hinbox]
    exact fun _ hrow => (nomatch hrow)
  · intro hall
    have hothers : ∀ other, other ≠ 0 → required.phase other = .idle := by
      intro other hne
      exact (hzeros other hne _ _).trans (hzeros other hne _ _)
    apply hagain'
    apply hall required (Runs.final_mem_visited _ _) 0 sampleEnvelope hfailed' (hnobody _ hfailed' hothers)
      (hempty _ hinbox') 1
      sampleAnswer _ hidle' hhash
    rw [hinbox']
    exact fun _ hrow => (nomatch hrow)

end Samples

end Inec
