import Inec.Lib.Expiring
import Inec.Lib.Rows
import Inec.Lib.Runs

/-!
# Sessions and the token blacklist

`session_blacklist.go` and the handlers of `/auth`. A login signs an access token for one hour and a refresh token
for seven days under one jti; a refresh does the same under a new jti and revokes the old one. A token is revoked
by an entry of the blacklist, which has an expiry of its own: it is kept in the memory of the server, and in Redis
when that can be reached. The entry of a jti is replaced when the jti is revoked again.

Every path that revokes chooses the expiry of its entry itself. Revocation is final exactly when each entry lasts as
long as the tokens it is to keep out; the entry of a refresh does, those of a logout and of the revocation handlers
need not.

A request is handled at one instant of the clock. Instants are counted in microseconds, the precision in which the
database keeps them. The `token_blacklist` table is read only when a server starts, and is left out.
-/

namespace Inec

def second : Nat := 1000000

def hour : Nat := 3600 * second

/-- `Time.Unix`: whole seconds, as an instant. -/
def unix (t : Nat) : Nat := t / second * second

inductive TokenType
  | access
  | refresh
  deriving DecidableEq, Repr

/-- A signed token. -/
structure Token where
  jti : String
  userId : Nat
  type : TokenType
  exp : Nat
  deriving DecidableEq, Repr

/-- A row of `active_sessions`. -/
structure Session where
  jti : String
  userId : Nat
  expiresAt : Nat
  deriving DecidableEq, Repr

/-! ### The blacklist -/

structure Blacklist where
  tokens : String → Option Nat
  redis : String → Option Nat

namespace Blacklist

def empty : Blacklist := ⟨fun _ => none, fun _ => none⟩

/-- A hit in Redis is enough; without one the memory decides. Redis drops a key at the end of its time to live,
the memory counts an entry up to its expiry, that instant included. -/
def isBlacklisted (bl : Blacklist) (redisUp : Bool) (now : Nat) (jti : String) : Bool :=
  redisUp && (bl.redis jti).any (fun expiry => decide (now < expiry)) ||
    (bl.tokens jti).any fun expiry => decide (now ≤ expiry)

/-- The time to live as the Redis client sends it: whole milliseconds, and at least one. -/
def redisTtl (ttl : Nat) : Nat := max 1000 (ttl / 1000 * 1000)

/-- The part of `revokeToken` and of the loop of `revokeAllForUser` that writes the entries that are checked. -/
def revoke (bl : Blacklist) (redisUp : Bool) (now : Nat) (jti : String) (expiresAt : Nat) : Blacklist where
  tokens := Expiring.put bl.tokens jti expiresAt
  redis :=
    if redisUp && decide (now < expiresAt) then Expiring.put bl.redis jti (now + redisTtl (expiresAt - now))
    else bl.redis

/-- The loop of `revokeAllForUser`. -/
def revokeAll (bl : Blacklist) (redisUp : String → Bool) (now : Nat) (sessions : List Session) : Blacklist :=
  sessions.foldl (fun bl x => bl.revoke (redisUp x.jti) now x.jti x.expiresAt) bl

/-- One round of `periodicCleanup`. -/
def cleanup (bl : Blacklist) (now : Nat) : Blacklist := { bl with tokens := Expiring.sweep bl.tokens now }

theorem revokeAll_tokens (bl : Blacklist) (redisUp : String → Bool) (now : Nat) (sessions : List Session) :
    (bl.revokeAll redisUp now sessions).tokens =
      Expiring.putAll bl.tokens (sessions.map fun x => (x.jti, x.expiresAt)) := by
  induction sessions generalizing bl with
  | nil => rfl
  | cons x rest ih => exact ih _

/-- Redis can only reject more than the memory does. -/
theorem isBlacklisted_of_memory {bl : Blacklist} {jti : String} {expiry now : Nat} (redisUp : Bool)
    (h : bl.tokens jti = some expiry) (hnow : now ≤ expiry) : bl.isBlacklisted redisUp now jti = true := by
  simp [isBlacklisted, h, hnow]

end Blacklist

/-- Which calls of a request to Redis and to the database succeed. -/
structure Works where
  redisRead : Bool
  redisWrite : Bool
  redisBulk : String → Bool
  lookup : Bool
  persist : Bool
  record : Bool
  delete : Bool

def Works.all : Works := ⟨true, true, fun _ => true, true, true, true, true⟩

structure Auth where
  now : Nat
  blacklist : Blacklist
  sessions : List Session
  /-- The tokens that were signed; only these pass `decodeToken`. -/
  issued : List Token
  /-- The jtis for which an entry has been written. -/
  revoked : List String

namespace Auth

/-- The system at the instant it is set up. -/
def start (now : Nat) : Auth := ⟨now, .empty, [], [], []⟩

variable (s : Auth)

/-- `jwtAuthMiddleware` for access tokens and the beginning of `handleRefreshToken` for refresh tokens, at an
instant. -/
def accepts (redisUp : Bool) (now : Nat) (type : TokenType) (token : Token) : Bool :=
  decide (token ∈ s.issued) && decide (now < token.exp) && decide (token.type = type) &&
    !(token.jti != "" && s.blacklist.isBlacklisted redisUp now token.jti)

/-- `generateJTI` draws sixteen random bytes; a draw that has come up before, or was named before it came up, is
left out. -/
def Fresh (draw : String) : Prop := draw ≠ "" ∧ (∀ t ∈ s.issued, t.jti ≠ draw) ∧ draw ∉ s.revoked

instance (draw : String) : Decidable (s.Fresh draw) := inferInstanceAs (Decidable (_ ∧ _ ∧ _))

def accessToken (jti : String) (userId : Nat) : Token := ⟨jti, userId, .access, unix (s.now + hour)⟩

def refreshToken (jti : String) (userId : Nat) : Token := ⟨jti, userId, .refresh, unix (s.now + 7 * 24 * hour)⟩

def recordSession (up : Works) (session : Session) : Auth :=
  if up.record then { s with sessions := s.sessions ++ [session] } else s

def revokeToken (up : Works) (jti : String) (expiresAt : Nat) : Auth :=
  { s with
    blacklist := s.blacklist.revoke up.redisWrite s.now jti expiresAt
    revoked := jti :: s.revoked }

/-- The rows `revokeAllForUser` finds. -/
def liveSessions (userId : Nat) : List Session :=
  s.sessions.filter fun x => decide (x.userId = userId ∧ s.now < x.expiresAt)

def revokeAllForUser (up : Works) (userId : Nat) : Auth :=
  if up.lookup then
    { s with
      blacklist := s.blacklist.revokeAll up.redisBulk s.now (s.liveSessions userId)
      revoked := (s.liveSessions userId).map (·.jti) ++ s.revoked }
  else s

def deleteSessions (up : Works) (gone : Session → Bool) : Auth :=
  if up.delete then { s with sessions := s.sessions.filter fun x => !gone x } else s

def login (up : Works) (userId : Nat) (draw : String) : Auth :=
  { s with issued := s.issued ++ [s.accessToken draw userId, s.refreshToken draw userId] }.recordSession up
    ⟨draw, userId, s.now + hour⟩

/-- A registration signs an access token and records no session. -/
def register (userId : Nat) (draw : String) : Auth := { s with issued := s.issued ++ [s.accessToken draw userId] }

/-- The exchange of a refresh token for a new pair. -/
def rotate (up : Works) (token : Token) (draw : String) : Auth :=
  ({ s with issued := s.issued ++ [s.accessToken draw token.userId, s.refreshToken draw token.userId] }.revokeToken up
    token.jti token.exp).recordSession up ⟨draw, token.userId, s.now + 7 * 24 * hour⟩

def logout (up : Works) (token : Token) : Auth :=
  let s := if token.jti != "" then s.revokeToken up token.jti (s.now + 24 * hour) else s
  let s := if 0 < token.userId then s.revokeAllForUser up token.userId else s
  s.deleteSessions up fun x => decide (x.userId = token.userId)

def revokeAllSessions (up : Works) (token : Token) : Auth :=
  (s.revokeAllForUser up token.userId).deleteSessions up fun x => decide (x.userId = token.userId)

/-- The entry is written even when the row of the revocation cannot be. -/
def revokeSession (up : Works) (token : Token) (jti : String) : Auth :=
  let s := s.revokeToken up jti (s.now + 24 * hour)
  if up.persist then s.deleteSessions up fun x => decide (x.jti = jti ∧ x.userId = token.userId) else s

end Auth

/-- `account` is the row the refresh handler reads: none, or whether it is active. -/
inductive AuthAct
  | tick (elapsed : Nat)
  | cleanup
  | login (up : Works) (userId : Nat) (draw : String)
  | register (userId : Nat) (draw : String)
  | refresh (up : Works) (token : Token) (account : Option Bool) (draw : String)
  | logout (up : Works) (token : Token)
  | revokeAllSessions (up : Works) (token : Token)
  | revokeSession (up : Works) (token : Token) (jti : String)

namespace Auth

def step (s : Auth) : AuthAct → Auth
  | .tick elapsed => { s with now := s.now + elapsed }
  | .cleanup => { s with blacklist := s.blacklist.cleanup s.now }
  | .login up userId draw => if s.Fresh draw then s.login up userId draw else s
  | .register userId draw => if s.Fresh draw then s.register userId draw else s
  | .refresh up token account draw =>
      if s.accepts up.redisRead s.now .refresh token ∧ account = some true ∧
        s.Fresh draw then s.rotate up token draw else s
  | .logout up token => if s.accepts up.redisRead s.now .access token then s.logout up token else s
  | .revokeAllSessions up token =>
      if s.accepts up.redisRead s.now .access token then s.revokeAllSessions up token else s
  | .revokeSession up token jti =>
      if s.accepts up.redisRead s.now .access token ∧ jti ≠ "" then s.revokeSession up token jti else s

end Auth

/-- No token under a revoked jti is accepted from now on, as either kind of token and whether Redis answers or
not. -/
def RevocationFinal (s : Auth) : Prop :=
  ∀ token ∈ s.issued, token.jti ∈ s.revoked →
    ∀ later, s.now ≤ later → ∀ redisUp type, s.accepts redisUp later type token = false

/-! ### When revocation is final -/

namespace Auth

variable (s : Auth)

/-- An entry that stands to the last instant at which a token signed under its jti is still valid. -/
def Covers (entry : String × Nat) : Prop :=
  ∀ token ∈ s.issued, token.jti = entry.1 → s.now < token.exp → token.exp ≤ entry.2 + 1

/-- The entries of `revokeAllForUser`. -/
def bulkEntries (up : Works) (userId : Nat) : List (String × Nat) :=
  if up.lookup then (s.liveSessions userId).map fun x => (x.jti, x.expiresAt) else []

def logoutBulk (up : Works) (token : Token) : List (String × Nat) :=
  if 0 < token.userId then s.bulkEntries up token.userId else []

/-- The entries of a logout: the jti of the presented token is first given 24 hours, and then the expiry of its
session if that is one of those found. -/
def logoutEntries (up : Works) (token : Token) : List (String × Nat) :=
  s.logoutBulk up token ++
    if token.jti ∈ (s.logoutBulk up token).map Prod.fst then [] else [(token.jti, s.now + 24 * hour)]

/-- The entries a step writes with an expiry that is not that of the token. -/
def entries : AuthAct → List (String × Nat)
  | .logout up token => if s.accepts up.redisRead s.now .access token then s.logoutEntries up token else []
  | .revokeAllSessions up token =>
      if s.accepts up.redisRead s.now .access token then s.bulkEntries up token.userId else []
  | .revokeSession up token jti =>
      if s.accepts up.redisRead s.now .access token ∧ jti ≠ "" then [(jti, s.now + 24 * hour)] else []
  | _ => []

end Auth

/-- The entries that a logout or a revocation writes last as long as the tokens under their jtis. -/
def EntriesLast (s : Auth) (act : AuthAct) : Prop := ∀ entry ∈ s.entries act, s.Covers entry

/-- Every token under a revoked jti that has not expired is covered by the entry in memory. -/
def Auth.Covered (s : Auth) : Prop :=
  ∀ token ∈ s.issued, token.jti ∈ s.revoked → s.now < token.exp →
    ∃ expiry, s.blacklist.tokens token.jti = some expiry ∧ token.exp ≤ expiry + 1

/-- What the handlers keep whatever they are sent. -/
structure Auth.Consistent (s : Auth) : Prop where
  /-- Under one jti the refresh token lives longest. -/
  longest : ∀ t ∈ s.issued, ∀ u ∈ s.issued, t.type = .refresh → u.jti = t.jti → u.exp ≤ t.exp
  named : ∀ t ∈ s.issued, t.jti ≠ ""
  recorded : ∀ x ∈ s.sessions, ∃ t ∈ s.issued, t.jti = x.jti
  distinct : (s.sessions.map (·.jti)).Nodup

section Final

variable {s : Auth}

theorem Auth.accepts_eq_false_of_covered {token : Token} {expiry later : Nat} (hne : token.jti ≠ "")
    (hentry : s.blacklist.tokens token.jti = some expiry) (hcover : token.exp ≤ expiry + 1) (redisUp : Bool)
    (type : TokenType) :
    s.accepts redisUp later type token = false := by
  by_cases hvalid : later < token.exp
  · have hblack := Blacklist.isBlacklisted_of_memory redisUp hentry (show later ≤ expiry by omega)
    simp [Auth.accepts, hblack, hne]
  · simp [Auth.accepts, hvalid]

/-- A token that Redis is not asked about is let through at its last valid instant unless the memory covers it. -/
theorem Auth.exists_entry_of_not_accepts {token : Token} (hissued : token ∈ s.issued) (hne : token.jti ≠ "")
    (hpos : 0 < token.exp) (h : s.accepts false (token.exp - 1) token.type token = false) :
    ∃ expiry, s.blacklist.tokens token.jti = some expiry ∧ token.exp ≤ expiry + 1 := by
  have hvalid : token.exp - 1 < token.exp := by omega
  cases hentry : s.blacklist.tokens token.jti with
  | none => simp [Auth.accepts, Blacklist.isBlacklisted, hentry, hissued, hvalid] at h
  | some expiry =>
      refine ⟨expiry, rfl, ?_⟩
      simpa [Auth.accepts, Blacklist.isBlacklisted, hentry, hissued, hvalid, hne] using h

theorem revocationFinal_iff_covered (hs : s.Consistent) : RevocationFinal s ↔ s.Covered := by
  constructor
  · intro h token hissued hrevoked hvalid
    have hlast := h token hissued hrevoked (token.exp - 1) (by omega) false token.type
    exact Auth.exists_entry_of_not_accepts hissued (hs.named token hissued) (by omega) hlast
  · intro h token hissued hrevoked later hlater redisUp type
    by_cases hvalid : s.now < token.exp
    · obtain ⟨expiry, hentry, hcover⟩ := h token hissued hrevoked hvalid
      exact Auth.accepts_eq_false_of_covered (hs.named token hissued) hentry hcover redisUp type
    · have hpast : ¬later < token.exp := by omega
      simp [Auth.accepts, hpast]

end Final

/-! ### What each step writes -/

section Writes

variable {s t : Auth}

/-- Signing tokens under a fresh jti changes nothing for the revoked ones. -/
theorem Auth.Covered.issue (h : s.Covered) {draw : String} (hdraw : s.Fresh draw) {tokens : List Token}
    (htokens : ∀ t ∈ tokens, t.jti = draw) : Auth.Covered { s with issued := s.issued ++ tokens } := by
  intro token hissued hrevoked hvalid
  rcases List.mem_append.mp hissued with hissued | hnew
  · exact h token hissued hrevoked hvalid
  · exact absurd (htokens token hnew ▸ hrevoked) hdraw.2.2

/-- `t` is `s` with another blacklist, other revoked jtis and fewer sessions. -/
structure Auth.Revokes (s t : Auth) : Prop where
  now : t.now = s.now
  issued : t.issued = s.issued
  sessions : t.sessions.Sublist s.sessions

/-- After the entries of `entries` are written, everything revoked is covered exactly if these entries cover
their tokens. -/
theorem Auth.covered_iff_of_overwrites (h : s.Covered) (hst : Auth.Revokes s t)
    {entries : List (String × Nat)} (hrevoked : ∀ jti, jti ∈ t.revoked ↔
      jti ∈ entries.map Prod.fst ∨ jti ∈ s.revoked)
    (htokens : Expiring.Overwrites s.blacklist.tokens t.blacklist.tokens entries) :
    t.Covered ↔ ∀ entry ∈ entries, s.Covers entry := by
  constructor
  · intro ht entry hentry token htoken hjti hvalid
    have hmem : token.jti ∈ t.revoked := (hrevoked _).mpr (.inl (hjti ▸ List.mem_map_of_mem hentry))
    obtain ⟨expiry, hlookup, hcover⟩ := ht token (hst.issued ▸ htoken) hmem (hst.now ▸ hvalid)
    rw [hjti, htokens.written entry hentry] at hlookup
    rw [Option.some.inj hlookup]
    exact hcover
  · intro hcovers token htoken hmem hvalid
    rw [hst.issued] at htoken
    rw [hst.now] at hvalid
    by_cases hwritten : token.jti ∈ entries.map Prod.fst
    · obtain ⟨entry, hentry, hjti⟩ := List.mem_map.mp hwritten
      exact ⟨entry.2, hjti ▸ htokens.written entry hentry, hcovers entry hentry token htoken hjti.symm hvalid⟩
    · rw [htokens.kept _ hwritten]
      exact h token htoken (((hrevoked _).mp hmem).resolve_left hwritten) hvalid

theorem Auth.Consistent.nodup_live (hs : s.Consistent) (userId : Nat) :
    ((s.liveSessions userId).map (·.jti)).Nodup :=
  (List.filter_sublist.map _).nodup hs.distinct

theorem Auth.bulkEntries_keys (up : Works) (userId : Nat) :
    (s.bulkEntries up userId).map Prod.fst = if up.lookup then (s.liveSessions userId).map (·.jti) else [] := by
  rw [Auth.bulkEntries]
  split
  · rw [List.map_map]
    rfl
  · rfl

theorem Auth.Consistent.nodup_bulk (hs : s.Consistent) (up : Works) (userId : Nat) :
    ((s.bulkEntries up userId).map Prod.fst).Nodup := by
  rw [Auth.bulkEntries_keys]
  split
  · exact hs.nodup_live userId
  · exact List.nodup_nil

theorem Auth.revokeAllForUser_tokens (up : Works) (userId : Nat) :
    (s.revokeAllForUser up userId).blacklist.tokens = Expiring.putAll s.blacklist.tokens
      (s.bulkEntries up userId) := by
  rw [Auth.revokeAllForUser, Auth.bulkEntries]
  split
  · exact Blacklist.revokeAll_tokens ..
  · rfl

theorem Auth.mem_revoked_revokeAllForUser (up : Works) (userId : Nat) (jti : String) :
    jti ∈ (s.revokeAllForUser up userId).revoked ↔ jti ∈ (s.bulkEntries up userId).map Prod.fst ∨
      jti ∈ s.revoked := by
  rw [Auth.bulkEntries_keys, Auth.revokeAllForUser]
  split
  · exact List.mem_append
  · exact ⟨.inr, fun h => h.resolve_left List.not_mem_nil⟩

theorem Auth.Revokes.trans {u : Auth} (h : Auth.Revokes s t) (h' : Auth.Revokes t u) : Auth.Revokes s u :=
  ⟨h'.now.trans h.now, h'.issued.trans h.issued, h'.sessions.trans h.sessions⟩

theorem Auth.revokes_revokeToken (up : Works) (jti : String) (expiresAt : Nat) :
    Auth.Revokes s (s.revokeToken up jti expiresAt) :=
  ⟨rfl, rfl, List.Sublist.refl _⟩

theorem Auth.revokes_revokeAllForUser (up : Works) (userId : Nat) :
    Auth.Revokes s (s.revokeAllForUser up userId) := by
  rw [Auth.revokeAllForUser]
  split
  · exact ⟨rfl, rfl, List.Sublist.refl _⟩
  · exact ⟨rfl, rfl, List.Sublist.refl _⟩

theorem Auth.revokes_deleteSessions (up : Works) (gone : Session → Bool) :
    Auth.Revokes s (s.deleteSessions up gone) := by
  rw [Auth.deleteSessions]
  split
  · exact ⟨rfl, rfl, List.filter_sublist⟩
  · exact ⟨rfl, rfl, List.Sublist.refl _⟩

@[simp] theorem Auth.deleteSessions_blacklist (up : Works) (gone : Session → Bool) :
    (s.deleteSessions up gone).blacklist = s.blacklist := by
  rw [Auth.deleteSessions]
  split
  · rfl
  · rfl

@[simp] theorem Auth.deleteSessions_revoked (up : Works) (gone : Session → Bool) :
    (s.deleteSessions up gone).revoked = s.revoked := by
  rw [Auth.deleteSessions]
  split
  · rfl
  · rfl

theorem Auth.Revokes.consistent (h : Auth.Revokes s t) (hs : s.Consistent) : t.Consistent where
  longest := h.issued ▸ hs.longest
  named := h.issued ▸ hs.named
  recorded x hx := h.issued ▸ hs.recorded x (h.sessions.subset hx)
  distinct := (h.sessions.map _).nodup hs.distinct

end Writes

/-! ### Every run -/

section Steps

variable {s : Auth}

theorem Auth.issued_of_accepts {redisUp : Bool} {now : Nat} {type : TokenType} {token : Token}
    (h : s.accepts redisUp now type token = true) : token ∈ s.issued ∧ token.type = type := by
  simp only [Auth.accepts, Bool.and_eq_true, decide_eq_true_iff] at h
  exact ⟨h.1.1.1, h.1.2⟩

/-- The tokens of one jti are signed together. -/
theorem Auth.Consistent.issue (hs : s.Consistent) {draw : String} (hdraw : s.Fresh draw) {tokens : List Token}
    (htokens : ∀ t ∈ tokens, t.jti = draw) (hlongest :
    ∀ t ∈ tokens, ∀ u ∈ tokens, t.type = .refresh → u.exp ≤ t.exp) :
    Auth.Consistent { s with issued := s.issued ++ tokens } where
  longest t ht u hu htype hjti := by
    rcases List.mem_append.mp ht with ht | ht
    · rcases List.mem_append.mp hu with hu | hu
      · exact hs.longest t ht u hu htype hjti
      · exact absurd (hjti.symm.trans (htokens u hu)) (hdraw.2.1 t ht)
    · rcases List.mem_append.mp hu with hu | hu
      · exact absurd (hjti.trans (htokens t ht)) (hdraw.2.1 u hu)
      · exact hlongest t ht u hu htype
  named t ht := by
    rcases List.mem_append.mp ht with ht | ht
    · exact hs.named t ht
    · exact htokens t ht ▸ hdraw.1
  recorded x hx := by
    obtain ⟨t, ht, hjti⟩ := hs.recorded x hx
    exact ⟨t, List.mem_append_left _ ht, hjti⟩
  distinct := hs.distinct

theorem Auth.Consistent.recordSession (hs : s.Consistent) (up : Works) {session : Session}
    (hissued : ∃ t ∈ s.issued, t.jti = session.jti) (hnew : ∀ x ∈ s.sessions, x.jti ≠ session.jti) :
    (s.recordSession up session).Consistent := by
  rw [Auth.recordSession]
  split
  · refine ⟨hs.longest, hs.named, ?_, ?_⟩
    · intro x hx
      rcases List.mem_append.mp hx with hx | hx
      · exact hs.recorded x hx
      · rw [List.mem_singleton.mp hx]
        exact hissued
    · apply Rows.nodup_map_append_singleton hs.distinct
      intro hmem
      obtain ⟨x, hx, heq⟩ := List.mem_map.mp hmem
      exact hnew x hx heq
  · exact hs

theorem Auth.Fresh.not_recorded (hs : s.Consistent) {draw : String} (hdraw : s.Fresh draw) :
    ∀ x ∈ s.sessions, x.jti ≠ draw := by
  intro x hx heq
  obtain ⟨t, ht, hjti⟩ := hs.recorded x hx
  exact hdraw.2.1 t ht (hjti.trans heq)

/-- The pair of a login or a refresh. -/
theorem Auth.Consistent.pair (hs : s.Consistent) {draw : String} (hdraw : s.Fresh draw) (userId : Nat) :
    Auth.Consistent { s with issued := s.issued ++ [s.accessToken draw userId, s.refreshToken draw userId] } := by
  refine hs.issue hdraw ?_ ?_
  · simp [Auth.accessToken, Auth.refreshToken]
  · have hle : unix (s.now + hour) ≤ unix (s.now + 7 * 24 * hour) := by
      simp only [unix, hour, second]
      omega
    simp [Auth.accessToken, Auth.refreshToken, hle]

theorem Auth.Consistent.login (hs : s.Consistent) (up : Works) (userId : Nat) {draw : String}
    (hdraw : s.Fresh draw) :
    (s.login up userId draw).Consistent := by
  apply (hs.pair hdraw userId).recordSession up
  · exact ⟨s.accessToken draw userId, by simp, rfl⟩
  · exact hdraw.not_recorded hs

theorem Auth.Consistent.rotate (hs : s.Consistent) (up : Works) (token : Token) {draw : String}
    (hdraw : s.Fresh draw) :
    (s.rotate up token draw).Consistent := by
  apply ((Auth.revokes_revokeToken up _ _).consistent (hs.pair hdraw token.userId)).recordSession up
  · exact ⟨s.accessToken draw token.userId, by simp [Auth.revokeToken], rfl⟩
  · exact hdraw.not_recorded hs

theorem Auth.revokes_bulk (up : Works) (userId : Nat) :
    Auth.Revokes s (if 0 < userId then s.revokeAllForUser up userId else s) := by
  split
  · exact Auth.revokes_revokeAllForUser up _
  · exact ⟨rfl, rfl, List.Sublist.refl _⟩

theorem Auth.revokes_logout (up : Works) (token : Token) : Auth.Revokes s (s.logout up token) := by
  rw [Auth.logout]
  refine Auth.Revokes.trans ?_ ((Auth.revokes_bulk up _).trans (Auth.revokes_deleteSessions up _))
  split
  · exact Auth.revokes_revokeToken up _ _
  · exact ⟨rfl, rfl, List.Sublist.refl _⟩

theorem Auth.revokes_revokeAllSessions (up : Works) (token : Token) :
    Auth.Revokes s (s.revokeAllSessions up token) :=
  (Auth.revokes_revokeAllForUser up _).trans (Auth.revokes_deleteSessions up _)

theorem Auth.revokes_revokeSession (up : Works) (token : Token) (jti : String) :
    Auth.Revokes s (s.revokeSession up token jti) := by
  rw [Auth.revokeSession]
  split
  · exact (Auth.revokes_revokeToken up _ _).trans (Auth.revokes_deleteSessions up _)
  · exact Auth.revokes_revokeToken up _ _

theorem authStep_consistent (s : Auth) (act : AuthAct) (hs : s.Consistent) : (s.step act).Consistent := by
  cases act with
  | tick elapsed => exact ⟨hs.longest, hs.named, hs.recorded, hs.distinct⟩
  | cleanup => exact ⟨hs.longest, hs.named, hs.recorded, hs.distinct⟩
  | login up userId draw =>
      simp only [Auth.step]
      split
      · exact hs.login up userId ‹_›
      · exact hs
  | register userId draw =>
      simp only [Auth.step]
      split
      · refine hs.issue ‹_› ?_ ?_
        · simp [Auth.accessToken]
        · simp [Auth.accessToken]
      · exact hs
  | refresh up token account draw =>
      simp only [Auth.step]
      split
      case isTrue h => exact hs.rotate up token h.2.2
      case isFalse => exact hs
  | logout up token =>
      simp only [Auth.step]
      split
      · exact (Auth.revokes_logout up token).consistent hs
      · exact hs
  | revokeAllSessions up token =>
      simp only [Auth.step]
      split
      · exact (Auth.revokes_revokeAllSessions up token).consistent hs
      · exact hs
  | revokeSession up token jti =>
      simp only [Auth.step]
      split
      · exact (Auth.revokes_revokeSession up token jti).consistent hs
      · exact hs

theorem Auth.Covered.tick (h : s.Covered) (elapsed : Nat) : Auth.Covered { s with now := s.now + elapsed } := by
  intro token hissued hrevoked hvalid
  exact h token hissued hrevoked (Nat.lt_of_le_of_lt (Nat.le_add_right _ _) hvalid)

/-- The cleanup drops entries that have ended, and the tokens they covered have ended with them. -/
theorem Auth.Covered.cleanup (h : s.Covered) : Auth.Covered { s with blacklist := s.blacklist.cleanup s.now } := by
  intro token hissued hrevoked hvalid
  obtain ⟨expiry, hentry, hcover⟩ := h token hissued hrevoked hvalid
  dsimp only at hvalid
  exact ⟨expiry, Expiring.sweep_eq_some.mpr ⟨hentry, by omega⟩, hcover⟩

@[simp] theorem Auth.recordSession_now (up : Works) (session : Session) :
    (s.recordSession up session).now = s.now := by
  rw [Auth.recordSession]
  split
  · rfl
  · rfl

@[simp] theorem Auth.recordSession_issued (up : Works) (session : Session) :
    (s.recordSession up session).issued = s.issued := by
  rw [Auth.recordSession]
  split
  · rfl
  · rfl

@[simp] theorem Auth.recordSession_blacklist (up : Works) (session : Session) :
    (s.recordSession up session).blacklist = s.blacklist := by
  rw [Auth.recordSession]
  split
  · rfl
  · rfl

theorem Auth.Covered.recordSession (h : s.Covered) (up : Works) (session : Session) :
    (s.recordSession up session).Covered := by
  rw [Auth.recordSession]
  split
  · exact h
  · exact h

theorem Auth.covered_revokeToken_iff (h : s.Covered) (up : Works) (jti : String) (expiresAt : Nat) :
    (s.revokeToken up jti expiresAt).Covered ↔ s.Covers (jti, expiresAt) := by
  have hkeys : ∀ other, other ∈ (s.revokeToken up jti expiresAt).revoked ↔
      other ∈ [(jti, expiresAt)].map Prod.fst ∨ other ∈ s.revoked := by
    simp [Auth.revokeToken]
  rw [Auth.covered_iff_of_overwrites h (Auth.revokes_revokeToken up _ _) hkeys (Expiring.overwrites_put ..),
    List.forall_mem_singleton]

/-- The entry of a refresh ends with the refresh token, the last of its jti to expire. -/
theorem Auth.Covered.rotate (hs : s.Consistent) (h : s.Covered) (up : Works) {token : Token} {draw : String}
    (hissued : token ∈ s.issued) (htype : token.type = .refresh) (hdraw : s.Fresh draw) :
    (s.rotate up token draw).Covered := by
  apply Auth.Covered.recordSession
  have hpair : Auth.Covered
      { s with issued := s.issued ++ [s.accessToken draw token.userId, s.refreshToken draw token.userId] } :=
    h.issue hdraw (by simp [Auth.accessToken, Auth.refreshToken])
  rw [Auth.covered_revokeToken_iff hpair]
  intro u hu hjti _
  exact Nat.le_succ_of_le ((hs.pair hdraw token.userId).longest token
    (List.mem_append_left _ hissued) u hu htype hjti)

/-- Sessions have no part in it. -/
theorem Auth.covered_deleteSessions_iff (up : Works) (gone : Session → Bool) :
    (s.deleteSessions up gone).Covered ↔ s.Covered := by
  rw [Auth.deleteSessions]
  split
  · exact Iff.rfl
  · exact Iff.rfl

theorem Auth.covered_revokeAllSessions_iff (hs : s.Consistent) (h : s.Covered) (up : Works) (token : Token) :
    (s.revokeAllSessions up token).Covered ↔ ∀ entry ∈ s.bulkEntries up token.userId, s.Covers entry := by
  rw [Auth.revokeAllSessions, Auth.covered_deleteSessions_iff]
  refine Auth.covered_iff_of_overwrites h (Auth.revokes_revokeAllForUser up _)
    (Auth.mem_revoked_revokeAllForUser up _) ?_
  rw [Auth.revokeAllForUser_tokens]
  exact Expiring.overwrites_putAll (hs.nodup_bulk up _)

theorem Auth.covered_revokeSession_iff (h : s.Covered) (up : Works) (token : Token) (jti : String) :
    (s.revokeSession up token jti).Covered ↔ s.Covers (jti, s.now + 24 * hour) := by
  rw [Auth.revokeSession]
  split
  · rw [Auth.covered_deleteSessions_iff, Auth.covered_revokeToken_iff h]
  · rw [Auth.covered_revokeToken_iff h]

/-- The two writes of a logout. -/
theorem Auth.logout_writes (up : Works) (token : Token) (hne : token.jti ≠ "") :
    (s.logout up token).blacklist.tokens =
        Expiring.putAll (Expiring.put s.blacklist.tokens token.jti (s.now + 24 * hour)) (s.logoutBulk up token) ∧
      ∀ jti, jti ∈ (s.logout up token).revoked ↔
        jti ∈ (s.logoutBulk up token).map Prod.fst ∨ jti = token.jti ∨ jti ∈ s.revoked := by
  have hfirst : (if token.jti != "" then s.revokeToken up token.jti (s.now + 24 * hour) else s) =
      s.revokeToken up token.jti (s.now + 24 * hour) := if_pos (by simpa using hne)
  rw [Auth.logout, hfirst, Auth.deleteSessions_blacklist, Auth.deleteSessions_revoked, Auth.logoutBulk]
  split
  · rw [Auth.revokeAllForUser_tokens]
    refine ⟨rfl, fun jti => ?_⟩
    rw [Auth.mem_revoked_revokeAllForUser]
    exact or_congr Iff.rfl List.mem_cons
  · refine ⟨rfl, fun jti => ?_⟩
    simp [Auth.revokeToken]

theorem Auth.mem_logoutEntries_keys (up : Works) (token : Token) (jti : String) :
    jti ∈ (s.logoutEntries up token).map Prod.fst ↔ jti ∈ (s.logoutBulk up token).map Prod.fst ∨
      jti = token.jti := by
  rw [Auth.logoutEntries, List.map_append, List.mem_append]
  by_cases hmem : token.jti ∈ (s.logoutBulk up token).map Prod.fst
  · rw [if_pos hmem]
    constructor
    · intro h
      exact .inl (h.resolve_right List.not_mem_nil)
    · rintro (h | rfl)
      · exact .inl h
      · exact .inl hmem
  · rw [if_neg hmem, List.map_singleton, List.mem_singleton]

theorem Auth.covered_logout_iff (hs : s.Consistent) (h : s.Covered) (up : Works) {token : Token}
    (hne : token.jti ≠ "") :
    (s.logout up token).Covered ↔ ∀ entry ∈ s.logoutEntries up token, s.Covers entry := by
  obtain ⟨htokens, hrevoked⟩ := @Auth.logout_writes s up token hne
  have hnodup : ((s.logoutBulk up token).map Prod.fst).Nodup := by
    rw [Auth.logoutBulk]
    split
    · exact hs.nodup_bulk up _
    · exact List.nodup_nil
  refine Auth.covered_iff_of_overwrites h (Auth.revokes_logout up token) ?_ ?_
  · intro jti
    rw [hrevoked, Auth.mem_logoutEntries_keys, or_assoc]
  · rw [htokens, Auth.logoutEntries]
    exact Expiring.overwrites_putAll_put _ _ _ hnodup

/-- A step keeps every revoked token out exactly if the entries it writes last. -/
theorem authStep_covered_iff (s : Auth) (act : AuthAct) (hs : s.Consistent) (h : s.Covered) :
    (s.step act).Covered ↔ EntriesLast s act := by
  have hnone : (∀ entry ∈ ([] : List (String × Nat)), s.Covers entry) ↔ True := by simp
  cases act with
  | tick elapsed => exact iff_of_true (h.tick elapsed) (hnone.mpr trivial)
  | cleanup => exact iff_of_true h.cleanup (hnone.mpr trivial)
  | login up userId draw =>
      refine iff_of_true ?_ (hnone.mpr trivial)
      simp only [Auth.step]
      split
      · exact (h.issue ‹_› (by simp [Auth.accessToken, Auth.refreshToken])).recordSession up _
      · exact h
  | register userId draw =>
      refine iff_of_true ?_ (hnone.mpr trivial)
      simp only [Auth.step]
      split
      · exact h.issue ‹_› (by simp [Auth.accessToken])
      · exact h
  | refresh up token account draw =>
      refine iff_of_true ?_ (hnone.mpr trivial)
      simp only [Auth.step]
      split
      case isTrue hall =>
        obtain ⟨hissued, htype⟩ := Auth.issued_of_accepts hall.1
        exact Auth.Covered.rotate hs h up hissued htype hall.2.2
      case isFalse => exact h
  | logout up token =>
      simp only [Auth.step, EntriesLast, Auth.entries]
      split
      case isTrue haccept =>
        exact Auth.covered_logout_iff hs h up (hs.named token (Auth.issued_of_accepts haccept).1)
      case isFalse => exact iff_of_true h (hnone.mpr trivial)
  | revokeAllSessions up token =>
      simp only [Auth.step, EntriesLast, Auth.entries]
      split
      · exact Auth.covered_revokeAllSessions_iff hs h up token
      · exact iff_of_true h (hnone.mpr trivial)
  | revokeSession up token jti =>
      simp only [Auth.step, EntriesLast, Auth.entries]
      split
      · rw [List.forall_mem_singleton]
        exact Auth.covered_revokeSession_iff h up token jti
      · exact iff_of_true h (hnone.mpr trivial)

end Steps

/-- In every history of logins, registrations, refreshes, logouts, revocations, cleanups and advances of the
clock, revocation is final all the time exactly if every entry that a logout or a revocation writes lasts as
long as the tokens under its jti. -/
theorem revocationFinal_iff_entriesLast (now : Nat) (acts : List AuthAct) :
    (∀ s ∈ Runs.visited Auth.step (.start now) acts, RevocationFinal s) ↔
      Runs.AllSteps Auth.step EntriesLast (.start now) acts := by
  have hstart : (Auth.start now).Consistent :=
    ⟨fun _ ht => (nomatch ht), fun _ ht => (nomatch ht), fun _ hx => (nomatch hx), List.nodup_nil⟩
  have hcovered : (Auth.start now).Covered := fun _ ht => (nomatch ht)
  apply Runs.forall_visited_iff authStep_consistent _ hstart ((revocationFinal_iff_covered hstart).mpr hcovered)
  intro s act hs hfinal
  rw [revocationFinal_iff_covered (authStep_consistent s act hs)]
  exact authStep_covered_iff s act hs ((revocationFinal_iff_covered hs).mp hfinal)

/-! ### A refresh token outlives the logout -/

section Outlives

def accessOfLogin : Token := ⟨"a1", 7, .access, 1 * hour⟩

def refreshOfLogin : Token := ⟨"a1", 7, .refresh, 7 * 24 * hour⟩

/-- A user logs in and out again, and comes back with the refresh token when the entry of the session has ended. -/
def loginLogoutReturn : List AuthAct := [.login .all 7 "a1", .logout .all accessOfLogin, .tick (hour + 1)]

/-- The same with nothing but the revocation of the one session, after a day. -/
def loginRevokeReturn : List AuthAct :=
  [.login .all 7 "a1", .revokeSession .all accessOfLogin "a1", .tick (24 * hour + 1)]

/-- The last state of both histories: the jti is revoked, and the handler takes the refresh token under it. -/
theorem refresh_token_survives :
    ∀ acts ∈ [loginLogoutReturn, loginRevokeReturn],
      refreshOfLogin ∈ (Runs.final Auth.step (.start 0) acts).issued ∧
        refreshOfLogin.jti ∈ (Runs.final Auth.step (.start 0) acts).revoked ∧
        (Runs.final Auth.step (.start 0) acts).now < refreshOfLogin.exp ∧
        (Runs.final Auth.step (.start 0) acts).accepts true
          (Runs.final Auth.step (.start 0) acts).now .refresh refreshOfLogin =
          true := by
  decide +kernel

theorem revoked_refresh_token_accepted :
    ¬(∀ s ∈ Runs.visited Auth.step (.start 0) loginLogoutReturn, RevocationFinal s) ∧
      ¬∀ s ∈ Runs.visited Auth.step (.start 0) loginRevokeReturn, RevocationFinal s := by
  have hbroken : ∀ acts ∈ [loginLogoutReturn, loginRevokeReturn],
      ¬∀ s ∈ Runs.visited Auth.step (.start 0) acts, RevocationFinal s := by
    intro acts hacts hfinal
    obtain ⟨hissued, hrevoked, -, haccepted⟩ := refresh_token_survives acts hacts
    have hrejected := hfinal _ (Runs.final_mem_visited _ _) refreshOfLogin hissued hrevoked _
      (Nat.le_refl _) true .refresh
    rw [haccepted] at hrejected
    cases hrejected
  exact ⟨hbroken _ (by simp), hbroken _ (by simp)⟩

end Outlives

end Inec
