import Inec.Session.Blacklist

/-!
# Concurrent refreshes

`handleRefreshToken` revokes the token it was given "so each refresh token is single-use". It decodes the token,
looks at the blacklist, reads the account, signs the new pair and only then writes the entry; nothing holds the
token in the meantime. Requests are numbered, and each is somewhere between these steps.

A refresh token is single-use as long as no request looks at the blacklist while another one that presents the
same token is between its own look and its entry. The clock has a part in it too: the entry ends with the token,
so a token that expires between being decoded and being looked up is not found on the blacklist.
-/

namespace Inec

/-- How far a request is. -/
inductive RefreshPhase
  | idle
  | decoded (token : Token)
  | checked (token : Token)
  | admitted (token : Token)
  | signed (token : Token) (draw : String)
  | revoked (token : Token) (draw : String)
  | answered (token : Token) (draw : String)
  | refused
  deriving DecidableEq

namespace RefreshPhase

/-- The token of a request that has not been refused. -/
def token? : RefreshPhase → Option Token
  | decoded token => some token
  | checked token => some token
  | admitted token => some token
  | signed token _ => some token
  | revoked token _ => some token
  | answered token _ => some token
  | _ => none

/-- The token of a request that has passed the blacklist. -/
def passed? : RefreshPhase → Option Token
  | checked token => some token
  | admitted token => some token
  | signed token _ => some token
  | revoked token _ => some token
  | answered token _ => some token
  | _ => none

/-- The token of a request that has passed the blacklist and not written its entry. -/
def pending? : RefreshPhase → Option Token
  | checked token => some token
  | admitted token => some token
  | signed token _ => some token
  | _ => none

/-- The token of a request that has written its entry. -/
def spent? : RefreshPhase → Option Token
  | revoked token _ => some token
  | answered token _ => some token
  | _ => none

variable {p : RefreshPhase} {token : Token}

theorem passed?_of_spent? (h : p.spent? = some token) : p.passed? = some token := by
  cases p <;> first | exact h | cases h

theorem token?_of_spent? (h : p.spent? = some token) : p.token? = some token := by
  cases p <;> first | exact h | cases h

theorem spent?_of_passed? (h : p.passed? = some token) (hpending : p.pending? ≠ some token) :
    p.spent? = some token := by
  cases p <;> first | exact h | exact absurd h hpending

end RefreshPhase

structure Rotation where
  auth : Auth
  phase : Nat → RefreshPhase

/-- One step of the clock, of the cleanup, of a login or of a numbered request. -/
inductive RefreshAct
  | tick (elapsed : Nat)
  | cleanup
  | login (up : Works) (userId : Nat) (draw : String)
  | present (request : Nat) (token : Token)
  | check (request : Nat) (redisUp : Bool)
  | account (request : Nat) (row : Option Bool)
  | sign (request : Nat) (draw : String)
  | revoke (request : Nat) (up : Works)
  | answer (request : Nat) (up : Works)

namespace Rotation

def start (now : Nat) : Rotation := ⟨.start now, fun _ => .idle⟩

variable (s : Rotation)

def setPhase (request : Nat) (p : RefreshPhase) : Rotation := { s with phase := Function.update s.phase request p }

def step (s : Rotation) : RefreshAct → Rotation
  | .tick elapsed => { s with auth := s.auth.step (.tick elapsed) }
  | .cleanup => { s with auth := s.auth.step .cleanup }
  | .login up userId draw => { s with auth := s.auth.step (.login up userId draw) }
  | .present request token =>
      match s.phase request with
      | .idle =>
          if token ∈ s.auth.issued ∧ s.auth.now < token.exp ∧ token.type =
            .refresh then s.setPhase request (.decoded token)
          else s.setPhase request .refused
      | _ => s
  | .check request redisUp =>
      match s.phase request with
      | .decoded token =>
          if token.jti != "" && s.auth.blacklist.isBlacklisted redisUp s.auth.now token.jti then s.setPhase request .refused
          else s.setPhase request (.checked token)
      | _ => s
  | .account request row =>
      match s.phase request with
      | .checked token =>
          if row = some true then s.setPhase request (.admitted token) else s.setPhase request .refused
      | _ => s
  | .sign request draw =>
      match s.phase request with
      | .admitted token =>
          if s.auth.Fresh draw then
            { auth := { s.auth with issued := s.auth.issued ++ [s.auth.accessToken draw token.userId, s.auth.refreshToken draw token.userId] }
              phase := Function.update s.phase request (.signed token draw) }
          else s
      | _ => s
  | .revoke request up =>
      match s.phase request with
      | .signed token draw =>
          { auth := if token.jti != "" then s.auth.revokeToken up token.jti token.exp else s.auth
            phase := Function.update s.phase request (.revoked token draw) }
      | _ => s
  | .answer request up =>
      match s.phase request with
      | .revoked token draw =>
          { auth := s.auth.recordSession up ⟨draw, token.userId, s.auth.now + 7 * 24 * hour⟩
            phase := Function.update s.phase request (.answered token draw) }
      | _ => s

end Rotation

/-- At most one request is answered for a token. -/
def SingleUse (s : Rotation) : Prop :=
  ∀ request other token draw draw', s.phase request = .answered token draw → s.phase other = .answered token draw' →
    request = other

/-- A request looks at the blacklist while its token is valid, and no other request has passed the blacklist
with this token and not yet written its entry. -/
def ChecksAlone (s : Rotation) (act : RefreshAct) : Prop :=
  ∀ request redisUp token, act = .check request redisUp → s.phase request = .decoded token →
    s.auth.now ≤ token.exp ∧ ∀ other, (s.phase other).pending? ≠ some token

/-! ### What the steps keep -/

structure Auth.OneRefresh (auth : Auth) : Prop where
  named : ∀ t ∈ auth.issued, t.jti ≠ ""
  /-- A jti has one refresh token. -/
  single : ∀ t ∈ auth.issued, ∀ u ∈ auth.issued, t.type = .refresh → u.type = .refresh → t.jti = u.jti → t = u

structure Rotation.Sound (s : Rotation) : Prop where
  tokens : s.auth.OneRefresh
  presented : ∀ request token, (s.phase request).token? = some token → token ∈ s.auth.issued ∧ token.type = .refresh
  unique : ∀ request other token, (s.phase request).passed? = some token → (s.phase other).passed? = some token →
    request = other
  entry : ∀ request token, (s.phase request).spent? = some token → s.auth.now ≤ token.exp →
    s.auth.blacklist.tokens token.jti = some token.exp

section Sound

variable {s : Rotation} {request : Nat} {p : RefreshPhase}

theorem Auth.OneRefresh.pair {auth : Auth} (h : auth.OneRefresh) {draw : String}
    (hdraw : auth.Fresh draw) (userId : Nat) :
    Auth.OneRefresh { auth with issued := auth.issued ++ [auth.accessToken draw userId, auth.refreshToken draw userId] } := by
  have hnew : ∀ t ∈ [auth.accessToken draw userId, auth.refreshToken draw userId], t.jti = draw := by
    simp [Auth.accessToken, Auth.refreshToken]
  refine ⟨?_, ?_⟩
  · intro t ht
    rcases List.mem_append.mp ht with ht | ht
    · exact h.named t ht
    · exact hnew t ht ▸ hdraw.1
  · intro t ht u hu htype hutype hjti
    rcases List.mem_append.mp ht with ht | ht
    · rcases List.mem_append.mp hu with hu | hu
      · exact h.single t ht u hu htype hutype hjti
      · exact absurd (hjti.trans (hnew u hu)) (hdraw.2.1 t ht)
    · rcases List.mem_append.mp hu with hu | hu
      · exact absurd (hjti.symm.trans (hnew t ht)) (hdraw.2.1 u hu)
      · simp only [List.mem_cons, List.not_mem_nil, or_false] at ht hu
        rcases ht with rfl | rfl
        · cases htype
        · rcases hu with rfl | rfl
          · cases hutype
          · rfl

theorem Auth.OneRefresh.recordSession {auth : Auth} (h : auth.OneRefresh) (up : Works) (session : Session) :
    (auth.recordSession up session).OneRefresh := by
  refine ⟨?_, ?_⟩
  · rw [Auth.recordSession_issued]
    exact h.named
  · rw [Auth.recordSession_issued]
    exact h.single

/-- One request moves on, and the tokens and the blacklist change under the others. -/
theorem Rotation.Sound.move (h : s.Sound) {auth : Auth} (htokens : auth.OneRefresh)
    (hissued : ∀ t ∈ s.auth.issued, t ∈ auth.issued)
    (htoken : ∀ token, p.token? = some token → token ∈ auth.issued ∧ token.type = .refresh)
    (hunique : ∀ token, p.passed? = some token → ∀ other, other ≠ request → (s.phase other).passed? ≠ some token)
    (hself : ∀ token, p.spent? = some token → auth.now ≤ token.exp →
      auth.blacklist.tokens token.jti = some token.exp)
    (hothers : ∀ other token, other ≠ request → (s.phase other).spent? = some token → auth.now ≤ token.exp →
      auth.blacklist.tokens token.jti = some token.exp) :
    Rotation.Sound ⟨auth, Function.update s.phase request p⟩ where
  tokens := htokens
  presented other token hother := by
    dsimp only at hother
    by_cases heq : other = request
    · rw [heq, Function.update_self] at hother
      exact htoken token hother
    · rw [Function.update_of_ne heq] at hother
      obtain ⟨hmem, htype⟩ := h.presented other token hother
      exact ⟨hissued token hmem, htype⟩
  unique first second token hfirst hsecond := by
    dsimp only at hfirst hsecond
    by_cases heq : first = request
    · by_cases heq' : second = request
      · rw [heq, heq']
      · rw [heq, Function.update_self] at hfirst
        rw [Function.update_of_ne heq'] at hsecond
        exact absurd hsecond (hunique token hfirst second heq')
    · rw [Function.update_of_ne heq] at hfirst
      by_cases heq' : second = request
      · rw [heq', Function.update_self] at hsecond
        exact absurd hfirst (hunique token hsecond first heq)
      · rw [Function.update_of_ne heq'] at hsecond
        exact h.unique first second token hfirst hsecond
  entry other token hspent hnow := by
    dsimp only at hspent
    by_cases heq : other = request
    · rw [heq, Function.update_self] at hspent
      exact hself token hspent hnow
    · rw [Function.update_of_ne heq] at hspent
      exact hothers other token heq hspent hnow

/-- A request that goes on with the token it has passed the blacklist with. -/
theorem Rotation.Sound.others_of_passed? (h : s.Sound) {token : Token}
    (hpassed : (s.phase request).passed? = some token) :
    ∀ other, other ≠ request → (s.phase other).passed? ≠ some token :=
  fun other hne hother => hne (h.unique other request token hother hpassed)

theorem Rotation.Sound.setPhase (h : s.Sound) (hspent : p.spent? = none)
    (htoken : ∀ token, p.token? = some token → token ∈ s.auth.issued ∧ token.type = .refresh)
    (hunique : ∀ token, p.passed? = some token → ∀ other, other ≠ request → (s.phase other).passed? ≠ some token) :
    (s.setPhase request p).Sound := by
  apply h.move h.tokens (fun _ ht => ht) htoken hunique
  · intro token hself
    rw [hspent] at hself
    cases hself
  · intro other token _ hother hnow
    exact h.entry other token hother hnow

theorem Rotation.Sound.refuse (h : s.Sound) : (s.setPhase request .refused).Sound :=
  h.setPhase rfl (fun _ hne => (nomatch hne)) (fun _ hne => (nomatch hne))

/-- A valid token whose entry is written is on the blacklist. -/
theorem Rotation.Sound.blacklisted (h : s.Sound) {other : Nat} {token : Token}
    (hspent : (s.phase other).spent? = some token) (hnow : s.auth.now ≤ token.exp) (redisUp : Bool) :
    s.auth.blacklist.isBlacklisted redisUp s.auth.now token.jti = true :=
  Blacklist.isBlacklisted_of_memory redisUp (h.entry other token hspent hnow) hnow

end Sound

theorem rotationStep_sound (s : Rotation) (act : RefreshAct) (h : s.Sound) (hcond : ChecksAlone s act) :
    (s.step act).Sound := by
  cases act with
  | tick elapsed =>
      refine ⟨⟨h.tokens.named, h.tokens.single⟩, h.presented, h.unique, ?_⟩
      intro request token hspent hnow
      exact h.entry request token hspent (Nat.le_trans (Nat.le_add_right _ _) hnow)
  | cleanup =>
      refine ⟨⟨h.tokens.named, h.tokens.single⟩, h.presented, h.unique, ?_⟩
      intro request token hspent hnow
      exact Expiring.sweep_eq_some.mpr ⟨h.entry request token hspent hnow, hnow⟩
  | login up userId draw =>
      simp only [Rotation.step, Auth.step]
      split
      case isTrue hdraw =>
        refine ⟨(h.tokens.pair hdraw userId).recordSession up _, ?_, h.unique, ?_⟩
        · intro request token hrequest
          obtain ⟨hmem, htype⟩ := h.presented request token hrequest
          rw [Auth.login, Auth.recordSession_issued]
          exact ⟨List.mem_append_left _ hmem, htype⟩
        · intro request token hspent hnow
          rw [Auth.login, Auth.recordSession_now] at hnow
          rw [Auth.login, Auth.recordSession_blacklist]
          exact h.entry request token hspent hnow
      case isFalse => exact h
  | present request token =>
      simp only [Rotation.step]
      split
      · split
        case isTrue hall =>
          refine h.setPhase rfl ?_ (by intro _ hne; cases hne)
          intro token' heq
          obtain rfl := Option.some.inj heq
          exact ⟨hall.1, hall.2.2⟩
        case isFalse => exact h.refuse
      · exact h
  | check request redisUp =>
      simp only [Rotation.step]
      split
      case h_1 token hphase =>
        obtain ⟨hnow, hpending⟩ := hcond request redisUp token rfl hphase
        have hpresented := h.presented request token (by rw [hphase]; rfl)
        split
        case isTrue => exact h.refuse
        case isFalse hclear =>
          refine h.setPhase rfl ?_ ?_
          · intro token' heq
            obtain rfl := Option.some.inj heq
            exact hpresented
          · intro token' heq other _ hother
            obtain rfl := Option.some.inj heq
            have hblack := h.blacklisted (RefreshPhase.spent?_of_passed? hother (hpending other)) hnow redisUp
            exact hclear (by simp [hblack, h.tokens.named token hpresented.1])
      case h_2 => exact h
  | account request row =>
      simp only [Rotation.step]
      split
      case h_1 token hphase =>
        split
        · refine h.setPhase rfl ?_ ?_
          · intro token' heq
            obtain rfl := Option.some.inj heq
            exact h.presented request token (by rw [hphase]; rfl)
          · intro token' heq
            obtain rfl := Option.some.inj heq
            exact h.others_of_passed? (by rw [hphase]; rfl)
        · exact h.refuse
      case h_2 => exact h
  | sign request draw =>
      simp only [Rotation.step]
      split
      case h_1 token hphase =>
        split
        case isTrue hdraw =>
          refine h.move (h.tokens.pair hdraw token.userId) (fun _ => List.mem_append_left _) ?_ ?_
            (by intro _ hne; cases hne) ?_
          · intro token' heq
            obtain rfl := Option.some.inj heq
            obtain ⟨hmem, htype⟩ := h.presented request token (by rw [hphase]; rfl)
            exact ⟨List.mem_append_left _ hmem, htype⟩
          · intro token' heq
            obtain rfl := Option.some.inj heq
            exact h.others_of_passed? (by rw [hphase]; rfl)
          · intro other token' _ hspent hnow
            exact h.entry other token' hspent hnow
        case isFalse => exact h
      case h_2 => exact h
  | revoke request up =>
      simp only [Rotation.step]
      split
      case h_1 token draw hphase =>
        obtain ⟨hmem, htype⟩ := h.presented request token (by rw [hphase]; rfl)
        have hwrite : (if token.jti != "" then s.auth.revokeToken up token.jti token.exp else s.auth) =
            s.auth.revokeToken up token.jti token.exp := if_pos (by simpa using h.tokens.named token hmem)
        rw [hwrite]
        refine h.move ⟨h.tokens.named, h.tokens.single⟩ (fun _ ht => ht) ?_ ?_ ?_ ?_
        · intro token' heq
          obtain rfl := Option.some.inj heq
          exact ⟨hmem, htype⟩
        · intro token' heq
          obtain rfl := Option.some.inj heq
          exact h.others_of_passed? (by rw [hphase]; rfl)
        · intro token' heq _
          obtain rfl := Option.some.inj heq
          exact Expiring.put_self ..
        · intro other token' hne hspent hnow
          obtain ⟨hmem', htype'⟩ := h.presented other token' (RefreshPhase.token?_of_spent? hspent)
          refine (Expiring.put_of_ne ?_).trans (h.entry other token' hspent hnow)
          intro hjti
          obtain rfl := h.tokens.single token' hmem' token hmem htype' htype hjti
          have hpassed : (s.phase request).passed? = some token' := by rw [hphase]; rfl
          exact h.others_of_passed? hpassed other hne (RefreshPhase.passed?_of_spent? hspent)
      case h_2 => exact h
  | answer request up =>
      simp only [Rotation.step]
      split
      case h_1 token draw hphase =>
        have hspent : (s.phase request).spent? = some token := by rw [hphase]; rfl
        refine h.move (h.tokens.recordSession up _) (fun t ht => by rwa [Auth.recordSession_issued]) ?_ ?_ ?_ ?_
        · intro token' heq
          obtain rfl := Option.some.inj heq
          rw [Auth.recordSession_issued]
          exact h.presented request token (RefreshPhase.token?_of_spent? hspent)
        · intro token' heq
          obtain rfl := Option.some.inj heq
          exact h.others_of_passed? (RefreshPhase.passed?_of_spent? hspent)
        · intro token' heq hnow
          obtain rfl := Option.some.inj heq
          rw [Auth.recordSession_now] at hnow
          rw [Auth.recordSession_blacklist]
          exact h.entry request token hspent hnow
        · intro other token' _ hother hnow
          rw [Auth.recordSession_now] at hnow
          rw [Auth.recordSession_blacklist]
          exact h.entry other token' hother hnow
      case h_2 => exact h

theorem Rotation.start_sound (now : Nat) : (Rotation.start now).Sound where
  tokens := ⟨fun _ ht => (nomatch ht), fun _ ht => (nomatch ht)⟩
  presented _ _ hne := (nomatch hne)
  unique _ _ _ hne := (nomatch hne)
  entry _ _ hne := (nomatch hne)

/-- In every interleaving of any number of refresh requests, with logins, cleanups and the clock in between, in
which every request looks at the blacklist alone, at most one request is answered for a token. -/
theorem singleUse_of_checksAlone (now : Nat) {acts : List RefreshAct}
    (h : Runs.AllSteps Rotation.step ChecksAlone (.start now) acts) :
    ∀ s ∈ Runs.visited Rotation.step (.start now) acts, SingleUse s := by
  intro s hs request other token draw draw' hrequest hother
  have hsound := Runs.forall_visited rotationStep_sound (Rotation.start_sound now) h s hs
  apply hsound.unique request other token
  · rw [hrequest]
    rfl
  · rw [hother]
    rfl

section Races

/-- What a request does when nothing stops it. -/
def wholeRefresh (request : Nat) (draw : String) : List RefreshAct :=
  [.present request refreshOfLogin, .check request true, .account request (some true), .sign request draw,
    .revoke request .all, .answer request .all]

/-- The second request comes when the first has been answered. -/
def refreshInTurn : List RefreshAct := .login .all 7 "a1" :: wholeRefresh 0 "b1" ++
      [.present 1 refreshOfLogin, .check 1 true]

theorem singleUse_of_refreshInTurn :
    (Runs.final Rotation.step (.start 0) refreshInTurn).phase 0 = .answered refreshOfLogin "b1" ∧
      (Runs.final Rotation.step (.start 0) refreshInTurn).phase 1 = .refused ∧
      ∀ s ∈ Runs.visited Rotation.step (.start 0) refreshInTurn, SingleUse s := by
  refine ⟨by decide +kernel, by decide +kernel, singleUse_of_checksAlone 0 ?_⟩
  refine ⟨?_, ?_, ?_, ?_, ?_, ?_, ?_, ?_, ?_, trivial⟩
  case refine_3 =>
    intro request redisUp token hact hphase
    obtain ⟨rfl, -⟩ := RefreshAct.check.inj hact
    obtain rfl := RefreshPhase.decoded.inj hphase
    refine ⟨by decide +kernel, fun other => ?_⟩
    by_cases hother : other = 0
    · rw [hother]
      decide +kernel
    · rw [show (_ : Rotation).phase other = .idle from Function.update_of_ne hother ..]
      decide
  case refine_9 =>
    intro request redisUp token hact hphase
    obtain ⟨rfl, -⟩ := RefreshAct.check.inj hact
    obtain rfl := RefreshPhase.decoded.inj hphase
    refine ⟨by decide +kernel, fun other => ?_⟩
    by_cases hzero : other = 0
    · rw [hzero]
      decide +kernel
    by_cases hone : other = 1
    · rw [hone]
      decide +kernel
    have hzeros (p : Nat → RefreshPhase) (q : RefreshPhase) : Function.update p 0 q other = p other :=
      Function.update_of_ne hzero ..
    rw [show (_ : Rotation).phase other = .idle from
      (Function.update_of_ne hone ..).trans ((hzeros _ _).trans
        ((hzeros _ _).trans ((hzeros _ _).trans ((hzeros _ _).trans
        ((hzeros _ _).trans (hzeros _ _))))))]
    decide
  all_goals
    intro _ _ _ hact
    cases hact

/-- Both requests look at the blacklist before either has written its entry. -/
def bothCheck : List RefreshAct :=
  [.login .all 7 "a1", .present 0 refreshOfLogin, .present 1 refreshOfLogin, .check 0 true, .check 1 true] ++
    (wholeRefresh 0 "b1").drop 2 ++ (wholeRefresh 1 "b2").drop 2

/-- The second request decodes the token in its last second and looks at the blacklist after it. -/
def expiresBetween : List RefreshAct :=
  .login .all 7 "a1" :: wholeRefresh 0 "b1" ++
    [.tick (7 * 24 * hour - 1), .present 1 refreshOfLogin, .tick 2] ++ (wholeRefresh 1 "b2").drop 1

theorem refresh_token_answered_twice :
    ¬(∀ s ∈ Runs.visited Rotation.step (.start 0) bothCheck, SingleUse s) ∧
      ¬∀ s ∈ Runs.visited Rotation.step (.start 0) expiresBetween, SingleUse s := by
  have hanswered : ∀ acts ∈ [bothCheck, expiresBetween],
      (Runs.final Rotation.step (.start 0) acts).phase 0 = .answered refreshOfLogin "b1" ∧
        (Runs.final Rotation.step (.start 0) acts).phase 1 = .answered refreshOfLogin "b2" := by
    decide +kernel
  have hbroken : ∀ acts ∈ [bothCheck, expiresBetween], ¬∀ s ∈ Runs.visited Rotation.step
      (.start 0) acts, SingleUse s := by
    intro acts hacts hsingle
    obtain ⟨hfirst, hsecond⟩ := hanswered acts hacts
    cases hsingle _ (Runs.final_mem_visited _ _) 0 1 refreshOfLogin "b1" "b2" hfirst hsecond
  exact ⟨hbroken _ (by simp), hbroken _ (by simp)⟩

end Races

end Inec
