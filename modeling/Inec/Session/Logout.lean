import Inec.Session.Blacklist

/-!
# Logout of the auth service

cmd/auth-svc signs an access token and a refresh token under two jtis and records no session for either.
RefreshToken validates the token it is given and enters its jti into `token_blacklist` before it signs the next
pair. The logout handler enters the jti of the access token it was called with, validates that token again, and
only where this succeeds goes on to RevokeAllForUser: it never does, since the entry is there (`no_revokeAll`).
So the refresh token of the pair, or the one it was last exchanged for, stays good (`RenewedBy`).

A refresh is two steps, since other requests may come between its validation and its entry; a logout is handled
at one instant of the clock.
-/

namespace Inec.AuthService

/-- A row of `token_blacklist`. -/
structure Entry where
  jti : String
  userId : Nat
  expiresAt : Nat
  reason : String
  deriving DecidableEq, Repr

structure Service where
  now : Nat
  /-- The tokens that were signed; a token that was not does not parse. -/
  issued : List Token
  blacklist : List Entry
  /-- `active_sessions`, which the auth service reads and never writes. -/
  sessions : List Session
  /-- The refresh tokens that have been validated and not entered. -/
  refreshing : List Token
  /-- The refresh tokens that were answered. -/
  refreshed : List Token
  /-- The users whose logouts were answered with success, and the tokens issued by then. -/
  loggedOut : List (Nat × List Token)
  deriving DecidableEq, Repr

inductive Input
  | tick (elapsed : Nat)
  | login (userId : Nat) (accessDraw refreshDraw : String)
  | presentRefresh (token : Token) (lookup : Bool)
  | exchange (index : Nat) (active : Bool) (persist : Bool) (accessDraw refreshDraw : String)
  | logout (token : Token) (persist lookup persistAll : Bool)
  deriving DecidableEq, Repr

namespace Service

def start (now : Nat) (sessions : List Session) : Service := ⟨now, [], [], sessions, [], [], []⟩

variable (s : Service)

/-- The parser: the signature and the expiry. -/
def parses (token : Token) : Bool := decide (token ∈ s.issued) && decide (s.now < token.exp)

/-- `COUNT(*) … WHERE jti AND expires_at > NOW()` is not zero. -/
def isRevoked (jti : String) : Bool := s.blacklist.any fun e => e.jti == jti && decide (s.now < e.expiresAt)

/-- `ValidateToken`; `lookup` tells whether the blacklist can be read. -/
def validateToken (token : Token) (lookup : Bool) : Bool :=
  s.parses token && (token.jti == "" || (lookup && !s.isRevoked token.jti))

/-- `generateJTI` draws sixteen random bytes; a draw that has come up before is left out. -/
def Fresh (draw : String) : Prop := draw ≠ "" ∧ ∀ t ∈ s.issued, t.jti ≠ draw

instance (draw : String) : Decidable (s.Fresh draw) := inferInstanceAs (Decidable (_ ∧ _))

/-- The draws of a pair. -/
def Drawn (accessDraw refreshDraw : String) : Prop :=
  s.Fresh accessDraw ∧ s.Fresh refreshDraw ∧ accessDraw ≠ refreshDraw

instance (accessDraw refreshDraw : String) : Decidable (s.Drawn accessDraw refreshDraw) :=
  inferInstanceAs (Decidable (_ ∧ _ ∧ _))

/-- `issueTokenPair` with the lifetimes of `DefaultConfig`. -/
def issueTokenPair (userId : Nat) (accessDraw refreshDraw : String) : Service :=
  { s with issued := s.issued ++ [⟨accessDraw, userId, .access, unix (s.now + hour)⟩,
      ⟨refreshDraw, userId, .refresh, unix (s.now + 7 * 24 * hour)⟩] }

/-- The INSERT with `ON CONFLICT (jti) DO NOTHING`. -/
def insertRotation (token : Token) : Service :=
  if s.blacklist.any (fun e => e.jti == token.jti) then s
  else { s with blacklist := s.blacklist ++ [⟨token.jti, token.userId, token.exp, "refresh_rotation"⟩] }

/-- An INSERT with `ON CONFLICT (jti) DO UPDATE SET revoked_at, reason`. -/
def upsert (entries : List Entry) (e : Entry) : List Entry :=
  if entries.any (fun old => old.jti == e.jti) then
    entries.map fun old => if old.jti = e.jti then { old with reason := e.reason } else old
  else entries ++ [e]

/-- `Revoke`, for a token that parses. -/
def revoke (token : Token) : Service :=
  { s with blacklist := upsert s.blacklist ⟨token.jti, token.userId, token.exp, "logout"⟩ }

def revokeAllForUser (userId : Nat) : Service :=
  { s with blacklist := ((s.sessions.filter fun x => x.userId == userId && decide (s.now < x.expiresAt)).map
      fun x => ⟨x.jti, userId, x.expiresAt, "bulk_revocation"⟩).foldl upsert s.blacklist }

/-- The middleware lets access tokens through that parse, and `Revoke` wants a jti and an INSERT that works. -/
def LogsOut (token : Token) (persist : Bool) : Prop :=
  (s.parses token = true ∧ token.type = .access) ∧ token.jti ≠ "" ∧ persist = true

instance (token : Token) (persist : Bool) : Decidable (s.LogsOut token persist) :=
  inferInstanceAs (Decidable ((_ ∧ _) ∧ _ ∧ _))

/-- What the handler makes of the blacklist. -/
def revokeSessions (token : Token) (lookup persistAll : Bool) : Service :=
  if (s.revoke token).validateToken token lookup && persistAll then
    (s.revoke token).revokeAllForUser token.userId
  else s.revoke token

/-- The handler answers with success where it gets to its end. -/
def logout (token : Token) (persist lookup persistAll : Bool) : Service :=
  if s.LogsOut token persist then
    { s.revokeSessions token lookup persistAll with loggedOut := s.loggedOut ++ [(token.userId, s.issued)] }
  else s

/-- `RefreshToken` from the row of the user on. -/
def exchange (token : Token) (active persist : Bool) (accessDraw refreshDraw : String) : Service :=
  if active = true ∧ persist = true then
    { (s.insertRotation token).issueTokenPair token.userId accessDraw refreshDraw with
      refreshed := s.refreshed ++ [token] }
  else s

def step : Input → Service
  | .tick elapsed => { s with now := s.now + elapsed }
  | .login userId accessDraw refreshDraw =>
      if s.Drawn accessDraw refreshDraw then s.issueTokenPair userId accessDraw refreshDraw else s
  | .presentRefresh token lookup =>
      if s.validateToken token lookup = true ∧ token.type = .refresh then
        { s with refreshing := s.refreshing ++ [token] }
      else s
  | .exchange index active persist accessDraw refreshDraw =>
      match s.refreshing[index]? with
      | some token =>
          if s.Drawn accessDraw refreshDraw then
            { s.exchange token active persist accessDraw refreshDraw with refreshing := s.refreshing.eraseIdx index }
          else s
      | none => s
  | .logout token persist lookup persistAll => s.logout token persist lookup persistAll

/-! ### What is asked -/

/-- No token issued to a user before a logout of the user passes. -/
def LoggedOut : Prop := ∀ x ∈ s.loggedOut, ∀ t ∈ x.2, t.userId = x.1 → s.validateToken t true = false

/-- No refresh token was answered twice. -/
def SingleUse : Prop := s.refreshed.Nodup

/-- No logout gets to its end, and an exchange finds no entry for its token. -/
def Careful : Input → Prop
  | .logout token persist _ _ => ¬ s.LogsOut token persist
  | .exchange index active persist accessDraw refreshDraw =>
      ∀ token ∈ s.refreshing[index]?, s.Drawn accessDraw refreshDraw → active = true → persist = true →
        s.blacklist.any (fun e => e.jti == token.jti) = false
  | _ => True

/-! ### While nobody has logged out -/

/-- The entry of an exchange. -/
def rotationEntry (token : Token) : Entry := ⟨token.jti, token.userId, token.exp, "refresh_rotation"⟩

/-- An unused refresh token of the same user that lives as long. -/
def RenewedBy (a r : Token) : Prop :=
  r ∈ s.issued ∧ r ∉ s.refreshed ∧ r.type = .refresh ∧ r.userId = a.userId ∧ a.exp ≤ r.exp

structure Booked : Prop where
  named : ∀ t ∈ s.issued, t.jti ≠ ""
  distinct : s.issued.Pairwise fun t u => t.jti ≠ u.jti
  bounded : ∀ t ∈ s.issued, t.exp ≤ unix (s.now + 7 * 24 * hour)
  refreshing : ∀ t ∈ s.refreshing, t ∈ s.issued ∧ t.type = .refresh
  refreshed : ∀ t ∈ s.refreshed, t ∈ s.issued ∧ t.type = .refresh
  entered : s.blacklist = s.refreshed.map rotationEntry
  single : s.refreshed.Nodup
  nobody : s.loggedOut = []

structure Open : Prop extends s.Booked where
  renewable : ∀ a ∈ s.issued, ∃ r, s.RenewedBy a r

variable {s}

theorem unix_le {t u : Nat} (h : t ≤ u) : unix t ≤ unix u := Nat.mul_le_mul_right _ (Nat.div_le_div_right h)

theorem Booked.eq_of_jti (h : s.Booked) {t u : Token} (ht : t ∈ s.issued) (hu : u ∈ s.issued)
    (heq : t.jti = u.jti) :
    t = u :=
  List.inj_on_of_nodup_map (List.pairwise_map.mpr h.distinct) ht hu heq

/-- A token is entered if it was exchanged. -/
theorem Booked.entered_iff (h : s.Booked) {t : Token} (ht : t ∈ s.issued) :
    s.blacklist.any (fun e => e.jti == t.jti) = true ↔ t ∈ s.refreshed := by
  rw [h.entered, List.any_map, List.any_eq_true]
  constructor
  · rintro ⟨u, hu, heq⟩
    have htu : u = t := h.eq_of_jti (h.refreshed u hu).1 ht (by simpa [rotationEntry] using heq)
    exact htu ▸ hu
  · exact fun hused => ⟨t, hused, by simp [rotationEntry]⟩

theorem start_open (now : Nat) (sessions : List Session) : (start now sessions).Open :=
  ⟨⟨nofun, .nil, nofun, nofun, nofun, rfl, .nil, rfl⟩, nofun⟩

theorem Open.tick (h : s.Open) (elapsed : Nat) : Open { s with now := s.now + elapsed } where
  named := h.named
  distinct := h.distinct
  bounded t ht := Nat.le_trans (h.bounded t ht) (unix_le (by dsimp only; omega))
  refreshing := h.refreshing
  refreshed := h.refreshed
  entered := h.entered
  single := h.single
  renewable := h.renewable
  nobody := h.nobody

theorem mem_issued_issueTokenPair {userId : Nat} {accessDraw refreshDraw : String} {t : Token} :
    t ∈ (s.issueTokenPair userId accessDraw refreshDraw).issued ↔
      t ∈ s.issued ∨ t = ⟨accessDraw, userId, .access, unix (s.now + hour)⟩ ∨
        t = ⟨refreshDraw, userId, .refresh, unix (s.now + 7 * 24 * hour)⟩ := by
  simp [issueTokenPair]

/-- A pair keeps the books, and its refresh token serves every token of the user. -/
theorem Booked.issueTokenPair (h : s.Booked) {userId : Nat} {accessDraw refreshDraw : String}
    (hdraws : s.Drawn accessDraw refreshDraw)
    (hrenew : ∀ a ∈ s.issued, (∃ r, s.RenewedBy a r) ∨ a.userId = userId) :
    (s.issueTokenPair userId accessDraw refreshDraw).Open := by
  obtain ⟨⟨hname, hfresh⟩, ⟨hname', hfresh'⟩, hne⟩ := hdraws
  refine ⟨⟨?_, ?_, ?_, ?_, ?_, h.entered, h.single, h.nobody⟩, ?_⟩
  · intro t ht
    rcases mem_issued_issueTokenPair.mp ht with ht | rfl | rfl
    · exact h.named t ht
    · exact hname
    · exact hname'
  · show (s.issued ++ _).Pairwise _
    rw [List.pairwise_append]
    refine ⟨h.distinct, by simpa using hne, ?_⟩
    intro t ht u hu
    simp only [List.mem_cons, List.not_mem_nil, or_false] at hu
    rcases hu with rfl | rfl
    · exact hfresh t ht
    · exact hfresh' t ht
  · intro t ht
    rcases mem_issued_issueTokenPair.mp ht with ht | rfl | rfl
    · exact h.bounded t ht
    · exact unix_le (by show s.now + hour ≤ s.now + 7 * 24 * hour; omega)
    · exact Nat.le_refl _
  · exact fun t ht => ⟨mem_issued_issueTokenPair.mpr (.inl (h.refreshing t ht).1), (h.refreshing t ht).2⟩
  · exact fun t ht => ⟨mem_issued_issueTokenPair.mpr (.inl (h.refreshed t ht).1), (h.refreshed t ht).2⟩
  · intro a ha
    have hnew : (⟨refreshDraw, userId, .refresh, unix (s.now + 7 * 24 * hour)⟩ : Token) ∉ s.refreshed :=
      fun hr => hfresh' _ (h.refreshed _ hr).1 rfl
    have hmem : ∀ {t : Token}, t ∈ (s.issueTokenPair userId accessDraw refreshDraw).issued ↔ _ :=
      mem_issued_issueTokenPair
    rcases hmem.mp ha with hold | rfl | rfl
    · rcases hrenew a hold with ⟨r, hr, hrest⟩ | rfl
      · exact ⟨r, hmem.mpr (.inl hr), hrest⟩
      · exact ⟨_, hmem.mpr (.inr (.inr rfl)), hnew, rfl, rfl, h.bounded a hold⟩
    · refine ⟨_, hmem.mpr (.inr (.inr rfl)), hnew, rfl, rfl, unix_le ?_⟩
      omega
    · exact ⟨_, hmem.mpr (.inr (.inr rfl)), hnew, rfl, rfl, Nat.le_refl _⟩

/-- The books after a token is entered and before the next pair is signed. -/
def used (s : Service) (token : Token) : Service :=
  { s.insertRotation token with refreshed := s.refreshed ++ [token] }

theorem exchange_eq {token : Token} {accessDraw refreshDraw : String} :
    s.exchange token true true accessDraw refreshDraw =
      (s.used token).issueTokenPair token.userId accessDraw refreshDraw := by
  rw [exchange, if_pos ⟨rfl, rfl⟩, used, insertRotation]
  split <;> rfl

theorem Booked.used (h : s.Booked) {token : Token} (ht : token ∈ s.issued) (htype : token.type = .refresh)
    (hnot : s.blacklist.any (fun e => e.jti == token.jti) = false) : (s.used token).Booked := by
  have hunused : token ∉ s.refreshed := fun hmem => by
    rw [← h.entered_iff ht, hnot] at hmem
    cases hmem
  rw [Service.used, insertRotation, if_neg (by rw [hnot]; exact Bool.false_ne_true)]
  refine ⟨h.named, h.distinct, h.bounded, h.refreshing, ?_, ?_, ?_, h.nobody⟩
  · intro t hmem
    rcases List.mem_append.mp hmem with hmem | hmem
    · exact h.refreshed t hmem
    · obtain rfl := List.mem_singleton.mp hmem
      exact ⟨ht, htype⟩
  · show s.blacklist ++ _ = (s.refreshed ++ [token]).map rotationEntry
    rw [h.entered, List.map_append]
    rfl
  · show (s.refreshed ++ [token]).Nodup
    rw [List.nodup_append]
    refine ⟨h.single, List.nodup_singleton token, ?_⟩
    rintro t hmem u hu rfl
    exact hunused (List.mem_singleton.mp hu ▸ hmem)

/-- What the token renewed, the refresh token of the next pair renews. -/
theorem Open.exchange (h : s.Open) {token : Token} {accessDraw refreshDraw : String} (ht : token ∈ s.issued)
    (htype : token.type = .refresh) (hdraws : s.Drawn accessDraw refreshDraw)
    (hnot : s.blacklist.any (fun e => e.jti == token.jti) = false) :
    (s.exchange token true true accessDraw refreshDraw).Open := by
  have hissued : (s.used token).issued = s.issued := by
    rw [used, insertRotation]
    split <;> rfl
  rw [exchange_eq]
  refine (h.toBooked.used ht htype hnot).issueTokenPair ?_ ?_
  · rw [Drawn, Fresh, Fresh, hissued]
    exact hdraws
  · intro a ha
    rw [hissued] at ha
    obtain ⟨r, hr, hunused, hrtype, huser, hexp⟩ := h.renewable a ha
    by_cases heq : r = token
    · exact .inr (heq ▸ huser.symm)
    · refine .inl ⟨r, by rw [hissued]; exact hr, ?_, hrtype, huser, hexp⟩
      show r ∉ s.refreshed ++ [token]
      rw [List.mem_append, List.mem_singleton]
      exact fun hmem => hmem.elim hunused heq

/-- A token that was entered before is answered a second time. -/
theorem Open.not_singleUse_exchange (h : s.Open) {token : Token} {accessDraw refreshDraw : String}
    (ht : token ∈ s.issued) (hentry : s.blacklist.any (fun e => e.jti == token.jti) = true) :
    ¬ (s.exchange token true true accessDraw refreshDraw).SingleUse := by
  rw [exchange_eq]
  intro hsingle
  have hnodup : (s.refreshed ++ [token]).Nodup := hsingle
  rw [List.nodup_append] at hnodup
  exact hnodup.2.2 token ((h.entered_iff ht).mp hentry) token (List.mem_singleton_self _) rfl

/-! ### A logout -/

theorem Open.revoke_eq (h : s.Open) {token : Token} (ht : token ∈ s.issued) (htype : token.type = .access) :
    s.revoke token = { s with blacklist := s.blacklist ++ [⟨token.jti, token.userId, token.exp, "logout"⟩] } := by
  have hnew : ¬ s.blacklist.any (fun e => e.jti == token.jti) = true := by
    rw [h.entered_iff ht]
    intro hused
    rw [(h.refreshed token hused).2] at htype
    cases htype
  rw [revoke, upsert, if_neg hnew]

theorem parses_iff {token : Token} : s.parses token = true ↔ token ∈ s.issued ∧ s.now < token.exp := by
  rw [parses, Bool.and_eq_true, decide_eq_true_iff, decide_eq_true_iff]

/-- The handler validates the token it has just revoked, and never comes to the bulk revocation. -/
theorem Open.no_revokeAll (h : s.Open) {token : Token} (hparses : s.parses token = true)
    (htype : token.type = .access) (lookup : Bool) : (s.revoke token).validateToken token lookup = false := by
  obtain ⟨ht, hexp⟩ := parses_iff.mp hparses
  have hrevoked : (s.revoke token).isRevoked token.jti = true := by
    rw [h.revoke_eq ht htype, isRevoked, List.any_append]
    simp [hexp]
  rw [validateToken, hrevoked, beq_eq_false_iff_ne.mpr (h.named token ht)]
  simp

/-- An unused refresh token outlives the logout. -/
theorem Open.validateToken_of_renewedBy (h : s.Open) {a r : Token} (hparses : s.parses a = true)
    (htype : a.type = .access) (hr : s.RenewedBy a r) : (s.revoke a).validateToken r true = true := by
  obtain ⟨ha, hexp⟩ := parses_iff.mp hparses
  obtain ⟨hissued, hunused, hrtype, -, hle⟩ := hr
  have hfree : (s.revoke a).isRevoked r.jti = false := by
    rw [h.revoke_eq ha htype, isRevoked, List.any_append, Bool.or_eq_false_iff]
    constructor
    · have hnot := mt (h.entered_iff hissued).mp hunused
      rw [List.any_eq_true, not_exists] at hnot
      rw [List.any_eq_false]
      intro e he hboth
      rw [Bool.and_eq_true] at hboth
      exact hnot e ⟨he, hboth.1⟩
    · have hne : a.jti ≠ r.jti := by
        intro heq
        have har := h.eq_of_jti ha hissued heq
        rw [har, hrtype] at htype
        cases htype
      simp [hne]
  have hlives : (s.revoke a).parses r = true := parses_iff.mpr ⟨hissued, Nat.lt_of_lt_of_le hexp hle⟩
  rw [validateToken, hlives, hfree]
  simp

/-- Every logout that is answered with success leaves a refresh token of the user behind. -/
theorem Open.not_loggedOut_logout (h : s.Open) {token : Token} {persist lookup persistAll : Bool}
    (hout : s.LogsOut token persist) : ¬ (s.logout token persist lookup persistAll).LoggedOut := by
  obtain ⟨⟨hparses, htype⟩, _⟩ := id hout
  obtain ⟨r, hr⟩ := h.renewable token (parses_iff.mp hparses).1
  rw [logout, if_pos hout, revokeSessions, h.no_revokeAll hparses htype, Bool.false_and,
    if_neg Bool.false_ne_true]
  intro hended
  have hdead : (s.revoke token).validateToken r true = false :=
    hended (token.userId, s.issued) (List.mem_append_right _ (List.mem_singleton_self _)) r hr.1 hr.2.2.2.1
  rw [h.validateToken_of_renewedBy hparses htype hr] at hdead
  cases hdead

/-! ### Runs -/

theorem Open.sound (h : s.Open) : s.LoggedOut ∧ s.SingleUse := by
  refine ⟨?_, h.single⟩
  rw [LoggedOut, h.nobody]
  nofun

theorem Open.of_refreshing_subset (h : s.Open) {refreshing : List Token}
    (hsub : ∀ t ∈ refreshing, t ∈ s.refreshing) :
    Open { s with refreshing := refreshing } where
  named := h.named
  distinct := h.distinct
  bounded := h.bounded
  refreshing t ht := h.refreshing t (hsub t ht)
  refreshed := h.refreshed
  entered := h.entered
  single := h.single
  renewable := h.renewable
  nobody := h.nobody

theorem Open.presentRefresh (h : s.Open) {token : Token} (ht : token ∈ s.issued) (htype : token.type = .refresh) :
    Open { s with refreshing := s.refreshing ++ [token] } where
  named := h.named
  distinct := h.distinct
  bounded := h.bounded
  refreshing t hmem := by
    rcases List.mem_append.mp hmem with hmem | hmem
    · exact h.refreshing t hmem
    · obtain rfl := List.mem_singleton.mp hmem
      exact ⟨ht, htype⟩
  refreshed := h.refreshed
  entered := h.entered
  single := h.single
  renewable := h.renewable
  nobody := h.nobody

theorem issued_of_validateToken {token : Token} {lookup : Bool} (h : s.validateToken token lookup = true) :
    token ∈ s.issued := by
  rw [validateToken, Bool.and_eq_true] at h
  exact (parses_iff.mp h.1).1

theorem refreshing_exchange {token : Token} {active persist : Bool} {accessDraw refreshDraw : String} :
    (s.exchange token active persist accessDraw refreshDraw).refreshing = s.refreshing := by
  rw [exchange]
  split
  · rw [insertRotation]
    split <;> rfl
  · rfl

theorem Open.step (h : s.Open) {i : Input} (hi : s.Careful i) : (s.step i).Open := by
  cases i with
  | tick elapsed => exact h.tick elapsed
  | login userId accessDraw refreshDraw =>
      rw [Service.step]
      split
      case isTrue hdraws => exact h.toBooked.issueTokenPair hdraws fun a ha => .inl (h.renewable a ha)
      case isFalse => exact h
  | presentRefresh token lookup =>
      rw [Service.step]
      split
      case isTrue hvalid => exact h.presentRefresh (issued_of_validateToken hvalid.1) hvalid.2
      case isFalse => exact h
  | exchange index active persist accessDraw refreshDraw =>
      rw [Service.step]
      split
      case h_1 token htoken =>
        obtain ⟨ht, htype⟩ := h.refreshing token (List.mem_of_getElem? htoken)
        split
        case isTrue hdraws =>
          have hopen : (s.exchange token active persist accessDraw refreshDraw).Open := by
            by_cases hworks : active = true ∧ persist = true
            · obtain ⟨rfl, rfl⟩ := hworks
              exact h.exchange ht htype hdraws (hi token htoken hdraws rfl rfl)
            · rw [Service.exchange, if_neg hworks]
              exact h
          refine hopen.of_refreshing_subset fun t hmem => ?_
          rw [refreshing_exchange]
          exact List.mem_of_mem_eraseIdx hmem
        case isFalse => exact h
      case h_2 => exact h
  | logout token persist lookup persistAll =>
      rw [Service.step, Service.logout, if_neg hi]
      exact h

theorem Open.careful_of_sound (h : s.Open) {i : Input} (hsound : (s.step i).LoggedOut ∧ (s.step i).SingleUse) :
    s.Careful i := by
  cases i with
  | tick elapsed => trivial
  | login userId accessDraw refreshDraw => trivial
  | presentRefresh token lookup => trivial
  | exchange index active persist accessDraw refreshDraw =>
      rintro token htoken hdraws rfl rfl
      rw [Option.mem_def] at htoken
      by_contra hentry
      rw [Bool.not_eq_false] at hentry
      have hsingle := hsound.2
      simp only [Service.step, htoken, if_pos hdraws] at hsingle
      have hused : (s.exchange token true true accessDraw refreshDraw).SingleUse := hsingle
      exact h.not_singleUse_exchange (h.refreshing token (List.mem_of_getElem? htoken)).1 hentry hused
  | logout token persist lookup persistAll => exact fun hout => h.not_loggedOut_logout hout hsound.1

/-- Logout ends the sessions and a refresh token is answered once exactly in the runs in which no logout gets to
its end and no exchange finds the entry of its token. -/
theorem loggedOut_iff (now : Nat) (sessions : List Session) (inputs : List Input) :
    (∀ s ∈ Runs.visited step (start now sessions) inputs, s.LoggedOut ∧ s.SingleUse) ↔
      Runs.AllSteps step Careful (start now sessions) inputs := by
  refine Runs.forall_visited_iff_of_strong ?_ ?_ ?_ (start_open now sessions) inputs
  · exact fun _ h => h.sound
  · exact fun _ _ h hsound => h.careful_of_sound hsound
  · exact fun _ _ h hi => h.step hi

/-- A login and a logout with its access token: the refresh token still passes. -/
theorem refresh_after_logout :
    ¬ ∀ now sessions inputs, ∀ s ∈ Runs.visited step (start now sessions) inputs, s.LoggedOut ∧ s.SingleUse := by
  intro h
  have hended := (h 0 [] [.login 7 "a" "r", .logout ⟨"a", 7, .access, unix hour⟩ true true true] _
    (Runs.final_mem_visited _ _)).1
  have hmem : (7, [⟨"a", 7, .access, unix hour⟩, ⟨"r", 7, .refresh, unix (7 * 24 * hour)⟩]) ∈
      (Runs.final step (start 0 [])
        [.login 7 "a" "r", .logout ⟨"a", 7, .access, unix hour⟩ true true true]).loggedOut := by
    decide +kernel
  have hdead := hended _ hmem ⟨"r", 7, .refresh, unix (7 * 24 * hour)⟩ (by decide) rfl
  have hlive : (Runs.final step (start 0 [])
      [.login 7 "a" "r", .logout ⟨"a", 7, .access, unix hour⟩ true true true]).validateToken
        ⟨"r", 7, .refresh, unix (7 * 24 * hour)⟩ true = true := by
    decide +kernel
  rw [hlive] at hdead
  cases hdead

end Service

end Inec.AuthService
