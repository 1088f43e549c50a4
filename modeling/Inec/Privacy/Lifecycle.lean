import Inec.Privacy.Erasure

/-!
# The lifecycle of an erasure request

At most one decision takes effect on a request, an erasure is started only for a request that somebody other
than its requester approved, and an executed request means that the voter is gone from every store. The handlers
see to the second part. The first needs reviews of one request that do not run into each other, the third needs
stores that do what they are told: the row is marked as executed in any case.
-/

namespace Inec.Erasure

open Checks

/-! ### The stores only lose data -/

namespace Stores

/-- A voter who is gone from a store stays away from it. -/
structure Shrinks (s s' : Stores) : Prop where
  voters : ∀ vin, s.VotersBlank vin → s'.VotersBlank vin
  templates : ∀ vin, s.TemplatesBlank vin → s'.TemplatesBlank vin
  profiles : ∀ vin, s.ProfilesBlank vin → s'.ProfilesBlank vin
  vault : ∀ vin, s.VaultBlank vin → s'.VaultBlank vin

theorem Shrinks.refl (s : Stores) : s.Shrinks s := ⟨fun _ => id, fun _ => id, fun _ => id, fun _ => id⟩

variable {s : Stores} {vin : String}

theorem Shrinks.erased {s' : Stores} (h : s.Shrinks s') (herased : s.Erased vin) : s'.Erased vin :=
  ⟨h.voters vin herased.voters, h.templates vin herased.templates, h.profiles vin herased.profiles,
    h.vault vin herased.vault⟩

theorem pseudonymizeVoters_blank (s : Stores) (vin : String) : (s.pseudonymizeVoters vin).VotersBlank vin := by
  intro r hr hvin
  rcases Rows.mem_update.mp hr with ⟨r₀, -, -, rfl⟩ | ⟨-, hne⟩
  · rfl
  · exact absurd hvin hne

theorem pseudonymizeVoters_shrinks (s : Stores) (vin : String) : s.Shrinks (s.pseudonymizeVoters vin) where
  voters := by
    intro vin' hblank r hr hvin
    rcases Rows.mem_update.mp hr with ⟨r₀, -, -, rfl⟩ | ⟨hr, -⟩
    · rfl
    · exact hblank r hr hvin
  templates := fun _ => id
  profiles := fun _ => id
  vault := fun _ => id

theorem deleteTemplates_blank (s : Stores) (vin : String) : (s.deleteTemplates vin).TemplatesBlank vin := by
  intro r hr
  simpa using (List.mem_filter.mp hr).2

theorem deleteTemplates_shrinks (s : Stores) (vin : String) : s.Shrinks (s.deleteTemplates vin) where
  voters := fun _ => id
  templates := fun _ hblank r hr => hblank r (List.mem_of_mem_filter hr)
  profiles := fun _ => id
  vault := fun _ => id

/-- The table has no such columns. -/
theorem blankProfiles_eq_none (s : Stores) : s.blankProfiles vin = none := by
  have hmissing : blankedColumns.all profileColumns.contains = false := by decide +kernel
  rw [blankProfiles, hmissing]
  rfl

theorem vaultErase_shrinks (s : Stores) (vin : String) (reply : VaultReply) :
    s.Shrinks (s.vaultErase vin reply).1 where
  voters := by
    cases reply <;> exact fun _ => id
  templates := by
    cases reply <;> exact fun _ => id
  profiles := by
    cases reply <;> exact fun _ => id
  vault := by
    rintro vin' ⟨htemplates, htransforms⟩
    have hgone : ∀ l : List String, vin' ∉ l → vin' ∉ l.filter (· != vin) :=
      fun l hl hmem => hl (List.mem_of_mem_filter hmem)
    cases reply with
    | erased => exact ⟨hgone _ htemplates, hgone _ htransforms⟩
    | failed => exact ⟨htemplates, htransforms⟩
    | templatesOnly => exact ⟨hgone _ htemplates, htransforms⟩
    | lost => exact ⟨hgone _ htemplates, hgone _ htransforms⟩

theorem vaultErase_blank {reply : VaultReply} (h : reply = .erased ∨ reply = .lost) (s : Stores) (vin : String) :
    (s.vaultErase vin reply).1.VaultBlank vin := by
  have hgone : ∀ l : List String, vin ∉ l.filter (· != vin) := by
    intro l hmem
    simpa using (List.mem_filter.mp hmem).2
  rcases h with rfl | rfl <;> exact ⟨hgone _, hgone _⟩

/-- What has been erased when a review comes to its next statement. -/
def ErasedUpTo (s : Stores) (vin : String) : Stage → Prop
  | .voters => True
  | .templates => s.VotersBlank vin
  | .profiles => s.VotersBlank vin ∧ s.TemplatesBlank vin
  | .vault => s.VotersBlank vin ∧ s.TemplatesBlank vin ∧ s.ProfilesBlank vin
  | .record | .ended => s.Erased vin

theorem Shrinks.erasedUpTo {s' : Stores} (h : s.Shrinks s') {stage : Stage} (hup : s.ErasedUpTo vin stage) :
    s'.ErasedUpTo vin stage := by
  cases stage with
  | voters => trivial
  | templates => exact h.voters vin hup
  | profiles => exact ⟨h.voters vin hup.1, h.templates vin hup.2⟩
  | vault => exact ⟨h.voters vin hup.1, h.templates vin hup.2.1, h.profiles vin hup.2.2⟩
  | record => exact h.erased hup
  | ended => exact h.erased hup

end Stores

/-- A store does what the statement asks of it, or has nothing of the voter. The profiles never do the former. -/
def StoreWorks (s : Stores) (vin : String) (reply : Reply) : Stage → Prop
  | .voters => reply.statement ≠ .refused ∨ s.VotersBlank vin
  | .templates => reply.statement ≠ .refused ∨ s.TemplatesBlank vin
  | .profiles => s.ProfilesBlank vin
  | .vault => (reply.vault = .erased ∨ reply.vault = .lost) ∨ s.VaultBlank vin
  | .record | .ended => True

instance (s : Stores) (vin : String) (reply : Reply) : (stage : Stage) → Decidable (StoreWorks s vin reply stage)
  | .voters => inferInstanceAs (Decidable (_ ∨ s.VotersBlank vin))
  | .templates => inferInstanceAs (Decidable (_ ∨ s.TemplatesBlank vin))
  | .profiles => inferInstanceAs (Decidable (s.ProfilesBlank vin))
  | .vault => inferInstanceAs (Decidable (_ ∨ s.VaultBlank vin))
  | .record | .ended => .isTrue trivial

theorem commit_eq (s : Stores) (t : Stores) (reply : Statements.CommitReply) :
    (Statements.commit s (some t) reply).1 = if reply = .refused then s else t := by
  cases reply <;> rfl

theorem eraseStep_shrinks (s : Stores) (vin : String) (reply : Reply) (stage : Stage) :
    s.Shrinks (eraseStep s vin reply stage).1 := by
  cases stage with
  | voters =>
      simp only [eraseStep, commit_eq]
      split
      · exact .refl s
      · exact s.pseudonymizeVoters_shrinks vin
  | templates =>
      simp only [eraseStep, commit_eq]
      split
      · exact .refl s
      · exact s.deleteTemplates_shrinks vin
  | profiles =>
      simp only [eraseStep, Stores.blankProfiles_eq_none, Statements.commit]
      exact .refl s
  | vault => exact s.vaultErase_shrinks vin reply.vault
  | record => exact .refl s
  | ended => exact .refl s

/-- A statement that works brings the erasure on by one store. -/
theorem eraseStep_erasedUpTo {s : Stores} {vin : String} {reply : Reply} {stage : Stage}
    (hworks : StoreWorks s vin reply stage) (hup : s.ErasedUpTo vin stage) :
    (eraseStep s vin reply stage).1.ErasedUpTo vin (eraseStep s vin reply stage).2.2 := by
  have hshrinks := eraseStep_shrinks s vin reply stage
  cases stage with
  | voters =>
      show (Statements.commit s (some (s.pseudonymizeVoters vin)) reply.statement).1.VotersBlank vin
      rw [commit_eq]
      split
      · rename_i hrefused
        exact hworks.resolve_left fun hne => hne hrefused
      · exact s.pseudonymizeVoters_blank vin
  | templates =>
      refine ⟨hshrinks.voters vin hup, ?_⟩
      show (Statements.commit s (some (s.deleteTemplates vin)) reply.statement).1.TemplatesBlank vin
      rw [commit_eq]
      split
      · rename_i hrefused
        exact hworks.resolve_left fun hne => hne hrefused
      · exact s.deleteTemplates_blank vin
  | profiles => exact ⟨hshrinks.voters vin hup.1, hshrinks.templates vin hup.2, hshrinks.profiles vin hworks⟩
  | vault =>
      refine ⟨hshrinks.voters vin hup.1, hshrinks.templates vin hup.2.1, hshrinks.profiles vin hup.2.2, ?_⟩
      rcases hworks with hreply | hblank
      · exact Stores.vaultErase_blank hreply s vin
      · exact hshrinks.vault vin hblank
  | record => exact hup
  | ended => exact hup

/-! ### Reviews that do not run into each other -/

namespace Review

/-- The review has begun to erase. -/
def Begun (v : Review) : Prop := v.approve = true ∧ v.stage ≠ .voters

/-- The review may still take effect, or it has begun to erase and its update is not in effect. -/
def Open (v : Review) : Prop := v.stage ≠ .ended ∧ (v.alive = true ∨ v.Begun)

instance (v : Review) : Decidable v.Begun := inferInstanceAs (Decidable (_ ∧ _))

instance (v : Review) : Decidable v.Open := inferInstanceAs (Decidable (_ ∧ _))

/-- The two speak of the same request, reviewer and voter. -/
def SameAs (v v' : Review) : Prop :=
  v'.pid = v.pid ∧ v'.requestId = v.requestId ∧ v'.reviewer = v.reviewer ∧ v'.approve = v.approve ∧ v'.vin = v.vin

end Review

namespace State

/-- No review starts while another one of its request is open, the reviewer and the requester are not both
unknown, the stores work, and nothing is erased by the old endpoint. -/
def Orderly (s : State) : Input → Prop
  | .request .. => True
  | .review body reviewer _ => ∀ b ∈ body,
      (∀ v ∈ s.reviews, v.requestId = b.requestId → ¬ v.Open) ∧
      ∀ r ∈ s.requests, r.id = b.requestId → r.requestedBy = 0 → reviewer ≠ 0
  | .advance pid reply => ∀ v ∈ s.reviews, v.pid = pid → v.alive = true → StoreWorks s.stores v.vin reply v.stage
  | .cut _ => True
  | .immediate vin .. => vin = ""

instance : (s : State) → (input : Input) → Decidable (s.Orderly input)
  | _, .request .. => .isTrue trivial
  | s, .review body reviewer _ =>
      inferInstanceAs (Decidable (∀ b ∈ body, (∀ v ∈ s.reviews, v.requestId = b.requestId → ¬ v.Open) ∧
        ∀ r ∈ s.requests, r.id = b.requestId → r.requestedBy = 0 → reviewer ≠ 0))
  | s, .advance pid reply =>
      inferInstanceAs (Decidable (∀ v ∈ s.reviews, v.pid = pid → v.alive = true →
        StoreWorks s.stores v.vin reply v.stage))
  | _, .cut _ => .isTrue trivial
  | _, .immediate vin .. => inferInstanceAs (Decidable (vin = ""))

/-- The requests on which a decision has taken effect. -/
def affected (s : State) : List Nat := s.effects.map (·.1)

structure Lawful (s : State) : Prop where
  ids : s.requests.map (·.id) = List.range' 1 s.requests.length
  pids : s.reviews.map (·.pid) = List.range s.reviews.length
  about : ∀ v ∈ s.reviews, ∃ r ∈ s.requests, r.id = v.requestId ∧ r.vin = v.vin ∧ r.requestedBy ≠ v.reviewer
  rejecting : ∀ v ∈ s.reviews, v.approve = false → v.stage = .record ∨ v.stage = .ended
  one : ∀ v ∈ s.reviews, ∀ v' ∈ s.reviews, v.Open → v'.Open → v.requestId = v'.requestId → v.pid = v'.pid
  once : s.affected.Nodup
  known : ∀ id ∈ s.affected, id ∈ s.requests.map (·.id)
  untouched : ∀ v ∈ s.reviews, v.Open → ¬ v.Begun → v.requestId ∉ s.affected
  settled : ∀ id ∈ s.affected,
    (∀ r ∈ s.requests, r.id = id → r.status ≠ .pending) ∨ ∃ v ∈ s.reviews, v.Open ∧ v.requestId = id
  progress : ∀ v ∈ s.reviews, v.approve = true → s.stores.ErasedUpTo v.vin v.stage
  executed : ∀ r ∈ s.requests, r.status = .executed → s.stores.Erased r.vin
  started : ∀ e ∈ s.erasures, ∃ r ∈ s.requests, e.2.2 = some r.id ∧ r.vin = e.1 ∧ e.2.1 ≠ r.requestedBy

variable {s : State}

theorem Lawful.request_nodup (h : s.Lawful) : (s.requests.map (·.id)).Nodup := by
  rw [h.ids]
  exact List.nodup_range'

theorem Lawful.review_nodup (h : s.Lawful) : (s.reviews.map (·.pid)).Nodup := by
  rw [h.pids]
  exact List.nodup_range

/-! ### Filing -/

theorem Lawful.request (h : s.Lawful) (vin reason : String) (actor : Nat) :
    ({ s with requests := s.requests ++
      [⟨s.requests.length + 1, vin, reason, actor, .pending, none, none⟩] } : State).Lawful := by
  have hnew : s.requests.length + 1 ∉ s.requests.map (·.id) := by
    rw [h.ids, List.mem_range'_1]
    omega
  refine ⟨?_, h.pids, ?_, h.rejecting, h.one, h.once, ?_, h.untouched, ?_, h.progress, ?_, ?_⟩
  · rw [List.map_append, h.ids, List.length_append, List.length_singleton, List.range'_concat, List.map_singleton]
    show _ ++ [s.requests.length + 1] = _ ++ [1 + 1 * s.requests.length]
    rw [Nat.one_mul, Nat.add_comm]
  · intro v hv
    obtain ⟨r, hr, hterms⟩ := h.about v hv
    exact ⟨r, List.mem_append_left _ hr, hterms⟩
  · intro id hid
    rw [List.map_append]
    exact List.mem_append_left _ (h.known id hid)
  · intro id hid
    rcases h.settled id hid with hsettled | hopen
    · left
      intro r hr heq
      rcases List.mem_append.mp hr with hr | hr
      · exact hsettled r hr heq
      · rw [List.mem_singleton.mp hr] at heq
        have hid' : s.requests.length + 1 = id := heq
        exact absurd (hid' ▸ h.known id hid) hnew
    · exact .inr hopen
  · intro r hr hexecuted
    rcases List.mem_append.mp hr with hr | hr
    · exact h.executed r hr hexecuted
    · rw [List.mem_singleton.mp hr] at hexecuted
      cases hexecuted
  · intro e he
    obtain ⟨r, hr, hterms⟩ := h.started e he
    exact ⟨r, List.mem_append_left _ hr, hterms⟩

/-! ### A review passes its checks -/

theorem beginReview_eq_ok {requests : List ErasureRequest} {works : Bool} {pid : Nat} {body : Option ReviewBody}
    {reviewer : Nat} {v : Review} (h : beginReview requests works pid body reviewer = .ok v) :
    ∃ b r, body = some b ∧ r ∈ requests ∧ r.id = b.requestId ∧ r.status = .pending ∧
      (r.requestedBy = reviewer → reviewer = 0) ∧ v.pid = pid ∧ v.requestId = r.id ∧ v.vin = r.vin ∧
      v.reviewer = reviewer ∧ v.stage = (if v.approve then .voters else .record) := by
  simp only [beginReview, bind_eq_ok, fetch_eq_ok, require_eq_ok, pure_eq_ok, decide_eq_true_eq] at h
  obtain ⟨b, hbody, -, -, r, hfind, -, hpending, -, hdual, hv⟩ := h
  split at hfind
  · obtain ⟨hr, hid⟩ := Rows.find?_key hfind
    rw [← hv]
    refine ⟨b, r, hbody, hr, hid, hpending, ?_, rfl, rfl, rfl, rfl, ?_⟩
    · intro heq
      by_contra hne
      exact hdual ⟨heq, hne⟩
    · simp
  · cases hfind

theorem Lawful.review (h : s.Lawful) {body : Option ReviewBody} {reviewer : Nat} {works : Bool} {v : Review}
    (hv : beginReview s.requests works s.reviews.length body reviewer = .ok v)
    (horderly : s.Orderly (.review body reviewer works)) :
    ({ s with reviews := s.reviews ++ [v] } : State).Lawful := by
  obtain ⟨b, r, rfl, hr, hid, hpending, hdual, hpid, hrequest, hvin, hreviewer, hstage⟩ := beginReview_eq_ok hv
  obtain ⟨hclosed, hknown⟩ := horderly b rfl
  have hnone : ∀ w ∈ s.reviews, w.requestId = v.requestId → ¬ w.Open := by
    intro w hw heq
    exact hclosed w hw (heq.trans (hrequest.trans hid))
  have huntouched : v.requestId ∉ s.affected := by
    intro hmem
    rcases h.settled _ hmem with hsettled | ⟨w, hw, hopen, heq⟩
    · exact hsettled r hr hrequest.symm hpending
    · exact hnone w hw heq hopen
  have hmem : ∀ w ∈ s.reviews ++ [v], w ∈ s.reviews ∨ w = v := by
    intro w hw
    rcases List.mem_append.mp hw with hw | hw
    · exact .inl hw
    · exact .inr (List.mem_singleton.mp hw)
  refine ⟨h.ids, ?_, ?_, ?_, ?_, h.once, h.known, ?_, ?_, ?_, h.executed, h.started⟩
  · rw [List.map_append, h.pids, List.length_append, List.length_singleton, List.range_succ,
      List.map_singleton, hpid]
  · intro w hw
    rcases hmem w hw with hw | rfl
    · exact h.about w hw
    · refine ⟨r, hr, hrequest.symm, hvin.symm, ?_⟩
      rw [hreviewer]
      intro heq
      have hzero := hdual heq
      exact hknown r hr hid (heq.trans hzero) hzero
  · intro w hw happrove
    rcases hmem w hw with hw | rfl
    · exact h.rejecting w hw happrove
    · rw [happrove] at hstage
      exact .inl hstage
  · intro w hw w' hw' hopen hopen' heq
    rcases hmem w hw with hold | hnew
    · rcases hmem w' hw' with hold' | hnew'
      · exact h.one w hold w' hold' hopen hopen' heq
      · rw [hnew'] at heq
        exact absurd hopen (hnone w hold heq)
    · rcases hmem w' hw' with hold' | hnew'
      · rw [hnew] at heq
        exact absurd hopen' (hnone w' hold' heq.symm)
      · rw [hnew, hnew']
  · intro w hw hopen hbegun
    rcases hmem w hw with hw | rfl
    · exact h.untouched w hw hopen hbegun
    · exact huntouched
  · intro id hmem
    rcases h.settled id hmem with hsettled | ⟨w, hw, hopen⟩
    · exact .inl hsettled
    · exact .inr ⟨w, List.mem_append_left _ hw, hopen⟩
  · intro w hw happrove
    rcases hmem w hw with hw | rfl
    · exact h.progress w hw happrove
    · rw [happrove] at hstage
      rw [hstage]
      trivial

/-! ### A review goes on -/

/-- Requests with the terms of others have their ids, and there is one for each. -/
theorem map_id_of_terms {requests before : List ErasureRequest}
    (hterms : requests.map (fun r => (r.id, r.vin, r.requestedBy)) =
      before.map fun r => (r.id, r.vin, r.requestedBy)) :
    requests.map (·.id) = before.map (·.id) := by
  have hmap := congrArg (List.map fun e : Nat × String × Nat => e.1) hterms
  rw [List.map_map, List.map_map] at hmap
  exact hmap

theorem exists_of_terms {requests before : List ErasureRequest}
    (hterms : requests.map (fun r => (r.id, r.vin, r.requestedBy)) =
      before.map fun r => (r.id, r.vin, r.requestedBy))
    {r : ErasureRequest} (hr : r ∈ before) :
    ∃ r' ∈ requests, r'.id = r.id ∧ r'.vin = r.vin ∧ r'.requestedBy = r.requestedBy := by
  have hmem : (r.id, r.vin, r.requestedBy) ∈ requests.map fun r => (r.id, r.vin, r.requestedBy) := by
    rw [hterms]
    exact List.mem_map.mpr ⟨r, hr, rfl⟩
  obtain ⟨r', hr', heq⟩ := List.mem_map.mp hmem
  simp only [Prod.mk.injEq] at heq
  exact ⟨r', hr', heq⟩

/-- An effect stays settled when a review goes on that is not the open one of its request. -/
theorem Lawful.settled_kept (h : s.Lawful) {v v' : Review} (hpid : v'.pid = v.pid) {requests : List ErasureRequest}
    {id : Nat} (hrequests : ∀ r' ∈ requests, r'.id = id → r' ∈ s.requests ∨ r'.status ≠ .pending)
    (hreviews : ∀ w ∈ s.reviews, w.Open → w.requestId = id → w.pid ≠ v.pid) (hid : id ∈ s.affected) :
    (∀ r' ∈ requests, r'.id = id → r'.status ≠ .pending) ∨
      ∃ w ∈ Rows.update (·.pid) v'.pid (fun _ => v') s.reviews, w.Open ∧ w.requestId = id := by
  rcases h.settled id hid with hdone | ⟨w, hw, hopenw, heq⟩
  · left
    intro r' hr' hid'
    rcases hrequests r' hr' hid' with hold | hne
    · exact hdone r' hold hid'
    · exact hne
  · right
    exact ⟨w, Rows.mem_update.mpr (.inr ⟨hw, hpid ▸ hreviews w hw hopenw heq⟩), hopenw, heq⟩

/-- A review has moved on to `v'`, and with it the stores, the requests and what took effect. -/
theorem Lawful.replace (h : s.Lawful) {v : Review} (hv : v ∈ s.reviews) (v' : Review) (hsame : v.SameAs v')
    (hopen : v'.Open → v.Open ∧ v'.Begun)
    (hrejecting : v'.approve = false → v'.stage = .record ∨ v'.stage = .ended) {stores : Stores}
    (hshrinks : s.stores.Shrinks stores) (hprogress : v'.approve = true → stores.ErasedUpTo v'.vin v'.stage)
    {requests : List ErasureRequest}
    (hterms : requests.map (fun r => (r.id, r.vin, r.requestedBy)) =
      s.requests.map fun r => (r.id, r.vin, r.requestedBy))
    (hstatus : ∀ r' ∈ requests, (r' ∈ s.requests) ∨ (r'.id = v.requestId ∧ r'.status ≠ .pending ∧
      (r'.status = .executed → v'.approve = true ∧ v'.stage = .ended)))
    {effects : List (Nat × Nat)}
    (heffects : effects = s.effects ∨ (effects = s.effects ++ [(v.requestId, v.pid)] ∧ v.Open ∧ ¬ v.Begun))
    (hsettled : v.requestId ∈ effects.map (·.1) →
      (∀ r' ∈ requests, r'.id = v.requestId → r'.status ≠ .pending) ∨ v'.Open ∨ ¬ v.Open)
    {erasures : List (String × Nat × Option Nat)}
    (herasures : erasures = s.erasures ∨ erasures = s.erasures ++ [(v.vin, v.reviewer, some v.requestId)]) :
    (State.setReview ⟨stores, requests, s.reviews, effects, erasures⟩ v').Lawful := by
  obtain ⟨hpid, hrequest, hreviewer, happrove, hvin⟩ := hsame
  obtain ⟨r, hr, hrid, hrvin, hrby⟩ := h.about v hv
  have hids := map_id_of_terms hterms
  have hlength : requests.length = s.requests.length := by
    have hlen := congrArg List.length hids
    rwa [List.length_map, List.length_map] at hlen
  have hkept := fun {r : ErasureRequest} (hr : r ∈ s.requests) => exists_of_terms hterms hr
  have hvinOf : ∀ r' ∈ requests, r'.id = v.requestId → r'.vin = v.vin := by
    intro r' hr' hid
    have hnodup : (requests.map (·.id)).Nodup := hids ▸ h.request_nodup
    obtain ⟨r₀, hr₀, hid₀, hvin₀, -⟩ := hkept hr
    rw [Rows.eq_of_key_eq hnodup hr' hr₀ (hid.trans (hrid.symm.trans hid₀.symm)), hvin₀, hrvin]
  have hmem : ∀ w ∈ Rows.update (·.pid) v'.pid (fun _ => v') s.reviews, w = v' ∨ w ∈ s.reviews ∧ w.pid ≠ v.pid := by
    intro w hw
    rcases Rows.mem_update.mp hw with ⟨w₀, -, -, rfl⟩ | ⟨hw, hne⟩
    · exact .inl rfl
    · exact .inr ⟨hw, hpid ▸ hne⟩
  have hmoved : v' ∈ Rows.update (·.pid) v'.pid (fun _ => v') s.reviews :=
    Rows.mem_update.mpr (.inl ⟨v, hv, hpid.symm, rfl⟩)
  have hsub : ∀ id ∈ effects.map (·.1), id ∈ s.affected ∨ id = v.requestId := by
    intro id hid
    rcases heffects with rfl | ⟨rfl, -, -⟩
    · exact .inl hid
    · rw [List.map_append, List.mem_append, List.map_singleton, List.mem_singleton] at hid
      exact hid
  refine ⟨?_, ?_, ?_, ?_, ?_, ?_, ?_, ?_, ?_, ?_, ?_, ?_⟩
  · show requests.map (·.id) = List.range' 1 requests.length
    rw [hids, hlength]
    exact h.ids
  · show (Rows.update (·.pid) v'.pid (fun _ => v') s.reviews).map (·.pid) =
      List.range (Rows.update (·.pid) v'.pid (fun _ => v') s.reviews).length
    have hkeys : (Rows.update (·.pid) v'.pid (fun _ => v') s.reviews).map (·.pid) = s.reviews.map (·.pid) :=
      Rows.map_update fun w _ hw => hw.symm
    have hlen := congrArg List.length hkeys
    rw [List.length_map, List.length_map] at hlen
    rw [hkeys, hlen]
    exact h.pids
  · intro w hw
    rcases hmem w hw with rfl | ⟨hw, -⟩
    · obtain ⟨r', hr', hid', hvin', hby'⟩ := hkept hr
      refine ⟨r', hr', ?_, ?_, ?_⟩
      · rw [hid', hrid, hrequest]
      · rw [hvin', hrvin, hvin]
      · rw [hby', hreviewer]
        exact hrby
    · obtain ⟨r₁, hr₁, hid₁, hvin₁, hby₁⟩ := h.about w hw
      obtain ⟨r', hr', hid', hvin', hby'⟩ := hkept hr₁
      exact ⟨r', hr', hid'.trans hid₁, hvin'.trans hvin₁, hby' ▸ hby₁⟩
  · intro w hw hreject
    rcases hmem w hw with rfl | ⟨hw, -⟩
    · exact hrejecting hreject
    · exact h.rejecting w hw hreject
  · intro w hw w' hw' hopenw hopenw' heq
    rcases hmem w hw with hnew | ⟨hold, hne⟩
    · rw [hnew] at hopenw heq ⊢
      rcases hmem w' hw' with hnew' | ⟨hold', hne'⟩
      · rw [hnew']
      · exact absurd (h.one v hv w' hold' (hopen hopenw).1 hopenw' (hrequest ▸ heq)).symm hne'
    · rcases hmem w' hw' with hnew' | ⟨hold', -⟩
      · rw [hnew'] at hopenw' heq
        exact absurd (h.one w hold v hv hopenw (hopen hopenw').1 (heq.trans hrequest)) hne
      · exact h.one w hold w' hold' hopenw hopenw' heq
  · show (effects.map (·.1)).Nodup
    rcases heffects with rfl | ⟨rfl, hvopen, hvbegun⟩
    · exact h.once
    · rw [List.map_append, List.map_singleton, List.nodup_append]
      refine ⟨h.once, List.nodup_singleton _, ?_⟩
      intro id hid id' hid' heq
      rw [heq, List.mem_singleton.mp hid'] at hid
      exact h.untouched v hv hvopen hvbegun hid
  · intro id hid
    show id ∈ requests.map (·.id)
    rw [hids]
    rcases hsub id hid with hid | rfl
    · exact h.known id hid
    · exact hrid ▸ List.mem_map_of_mem hr
  · intro w hw hopenw hbegunw
    rcases hmem w hw with rfl | ⟨hw, hne⟩
    · exact absurd (hopen hopenw).2 hbegunw
    · intro hid
      replace hid : w.requestId ∈ effects.map (·.1) := hid
      rcases heffects with heq | ⟨-, hvopen, -⟩
      · rw [heq] at hid
        exact h.untouched w hw hopenw hbegunw hid
      · rcases hsub w.requestId hid with hid | heq'
        · exact h.untouched w hw hopenw hbegunw hid
        · exact hne (h.one w hw v hv hopenw hvopen heq')
  · intro id hid
    replace hid : id ∈ effects.map (·.1) := hid
    by_cases hthis : id = v.requestId
    · rw [hthis]
      rw [hthis] at hid
      rcases hsettled hid with hdone | hopen' | hclosed
      · exact .inl hdone
      · exact .inr ⟨v', hmoved, hopen', hrequest⟩
      · have hold : v.requestId ∈ s.affected := by
          rcases heffects with heq | ⟨-, hvopen, -⟩
          · rw [heq] at hid
            exact hid
          · exact absurd hvopen hclosed
        apply h.settled_kept hpid _ _ hold
        · intro r' hr' _
          exact (hstatus r' hr').imp_right fun hthis => hthis.2.1
        · intro w hw hopenw _ hpid'
          rw [Rows.eq_of_key_eq h.review_nodup hw hv hpid'] at hopenw
          exact hclosed hopenw
    · apply h.settled_kept hpid _ _ ((hsub id hid).resolve_right hthis)
      · intro r' hr' hid'
        exact (hstatus r' hr').imp_right fun hother => absurd (hid'.symm.trans hother.1) hthis
      · intro w hw _ heq hpid'
        rw [Rows.eq_of_key_eq h.review_nodup hw hv hpid'] at heq
        exact hthis heq.symm
  · intro w hw happrovew
    rcases hmem w hw with rfl | ⟨hw, -⟩
    · exact hprogress happrovew
    · exact hshrinks.erasedUpTo (h.progress w hw happrovew)
  · intro r' hr' hexecuted
    show stores.Erased r'.vin
    rcases hstatus r' hr' with hr₀ | ⟨hid', -, hended⟩
    · exact hshrinks.erased (h.executed r' hr₀ hexecuted)
    · obtain ⟨happrove', hstage'⟩ := hended hexecuted
      have herased := hprogress happrove'
      rw [hstage', hvin] at herased
      rw [hvinOf r' hr' hid']
      exact herased
  · intro e he
    have hold : ∀ e ∈ s.erasures, ∃ r ∈ requests, e.2.2 = some r.id ∧ r.vin = e.1 ∧ e.2.1 ≠ r.requestedBy := by
      intro e he
      obtain ⟨r₁, hr₁, hid₁, hvin₁, hby₁⟩ := h.started e he
      obtain ⟨r', hr', hid', hvin', hby'⟩ := hkept hr₁
      exact ⟨r', hr', hid' ▸ hid₁, hvin'.trans hvin₁, hby' ▸ hby₁⟩
    rcases herasures with rfl | rfl
    · exact hold e he
    · rcases List.mem_append.mp he with he | he
      · exact hold e he
      · rw [List.mem_singleton.mp he]
        obtain ⟨r', hr', hid', hvin', hby'⟩ := hkept hr
        refine ⟨r', hr', ?_, hvin'.trans hrvin, ?_⟩
        · rw [hid', hrid]
        · rw [hby']
          exact hrby.symm

theorem recordDecision_terms (v : Review) (requests : List ErasureRequest) :
    (recordDecision v requests).map (fun r => (r.id, r.vin, r.requestedBy)) =
      requests.map fun r => (r.id, r.vin, r.requestedBy) := by
  unfold recordDecision
  exact Rows.map_update fun _ _ _ => rfl

theorem mem_recordDecision {v : Review} {requests : List ErasureRequest} {r' : ErasureRequest}
    (h : r' ∈ recordDecision v requests) :
    (r' ∈ requests ∧ r'.id ≠ v.requestId) ∨
      (r'.id = v.requestId ∧ r'.status = if v.approve then .executed else .rejected) := by
  rcases Rows.mem_update.mp h with ⟨r₀, -, hid, rfl⟩ | ⟨hr, hne⟩
  · exact .inr ⟨hid, rfl⟩
  · exact .inl ⟨hr, hne⟩

/-- The last update of a review. -/
theorem Lawful.record (h : s.Lawful) {v : Review} (hv : v ∈ s.reviews) (halive : v.alive = true)
    (hstage : v.stage = .record) (reply : Reply) : (s.advance v reply).Lawful := by
  have hopen : v.Open := ⟨by rw [hstage]; decide, .inl halive⟩
  simp only [advance, hstage]
  split
  · apply h.replace hv { v with alive := false, stage := if v.approve then .record else .ended }
      ⟨rfl, rfl, rfl, rfl, rfl⟩ _ _ (.refl _) _ rfl (fun r' hr' => .inl hr') (.inl rfl) _ (.inl rfl)
    · rintro ⟨hne, -⟩
      cases happrove : v.approve with
      | true => exact ⟨hopen, rfl, by simp⟩
      | false => simp [happrove] at hne
    · intro hreject
      right
      have hreject' : v.approve = false := hreject
      simp [hreject']
    · intro happrove
      have happrove' : v.approve = true := happrove
      have hprogress := h.progress v hv happrove'
      rw [hstage] at hprogress
      simp only [happrove', if_true]
      exact hprogress
    · intro haffected
      cases happrove : v.approve with
      | true =>
          right
          left
          refine ⟨?_, .inr ⟨rfl, ?_⟩⟩ <;> simp
      | false =>
          have hbegun : ¬ v.Begun := fun hbegun => by simp [Review.Begun, happrove] at hbegun
          exact absurd haffected (h.untouched v hv hopen hbegun)
  · apply h.replace hv { v with stage := .ended } ⟨rfl, rfl, rfl, rfl, rfl⟩ _ _ (.refl _) _
      (recordDecision_terms v s.requests) _ _ _ (.inl rfl)
    · rintro ⟨hne, -⟩
      exact absurd rfl hne
    · intro _
      exact .inr rfl
    · intro happrove
      have hprogress := h.progress v hv happrove
      rw [hstage] at hprogress
      exact hprogress
    · intro r' hr'
      rcases mem_recordDecision hr' with ⟨hr', -⟩ | ⟨hid, hstatus⟩
      · exact .inl hr'
      · right
        refine ⟨hid, ?_, ?_⟩
        · rw [hstatus]
          split <;> decide
        · intro hexecuted
          rw [hstatus] at hexecuted
          cases happrove : v.approve with
          | true => exact ⟨rfl, rfl⟩
          | false => simp [happrove] at hexecuted
    · cases happrove : v.approve with
      | true => exact .inl (if_pos rfl)
      | false =>
          right
          refine ⟨if_neg (by decide), hopen, ?_⟩
          intro hbegun
          simp [Review.Begun, happrove] at hbegun
    · intro _
      left
      intro r' hr' hid
      rcases mem_recordDecision hr' with ⟨-, hne⟩ | ⟨-, hstatus⟩
      · exact absurd hid hne
      · rw [hstatus]
        split <;> decide

theorem eraseStep_next {s : Stores} {vin : String} {reply : Reply} {stage : Stage} (hrecord : stage ≠ .record)
    (hended : stage ≠ .ended) :
    (eraseStep s vin reply stage).2.2 ≠ .voters ∧ (eraseStep s vin reply stage).2.2 ≠ .ended := by
  cases stage with
  | voters => exact ⟨Stage.noConfusion, Stage.noConfusion⟩
  | templates => exact ⟨Stage.noConfusion, Stage.noConfusion⟩
  | profiles => exact ⟨Stage.noConfusion, Stage.noConfusion⟩
  | vault => exact ⟨Stage.noConfusion, Stage.noConfusion⟩
  | record => exact absurd rfl hrecord
  | ended => exact absurd rfl hended

/-- A statement on a store. -/
theorem Lawful.erase (h : s.Lawful) {v : Review} (hv : v ∈ s.reviews) (halive : v.alive = true)
    (hrecord : v.stage ≠ .record) (hended : v.stage ≠ .ended) {reply : Reply}
    (hworks : StoreWorks s.stores v.vin reply v.stage) : (s.advance v reply).Lawful := by
  have hopen : v.Open := ⟨hended, .inl halive⟩
  have happrove : v.approve = true := by
    cases hreject : v.approve with
    | true => rfl
    | false =>
        rcases h.rejecting v hv hreject with heq | heq
        · exact absurd heq hrecord
        · exact absurd heq hended
  obtain ⟨hnext, hnext'⟩ := @eraseStep_next s.stores v.vin reply v.stage hrecord hended
  have hadvance : s.advance v reply =
      { s with
        stores := (eraseStep s.stores v.vin reply v.stage).1
        effects := if v.stage = Stage.voters then s.effects ++ [(v.requestId, v.pid)] else s.effects
        erasures :=
          if v.stage = Stage.voters then s.erasures ++ [(v.vin, v.reviewer,
            some v.requestId)] else s.erasures }.setReview
        { v with
          stage := (eraseStep s.stores v.vin reply v.stage).2.2
          steps := v.steps ++ (eraseStep s.stores v.vin reply v.stage).2.1 } := by
    unfold advance
    split
    · rename_i heq
      exact absurd heq hrecord
    · rfl
  rw [hadvance]
  apply h.replace hv
    { v with
      stage := (eraseStep s.stores v.vin reply v.stage).2.2
      steps := v.steps ++ (eraseStep s.stores v.vin reply v.stage).2.1 } ⟨rfl, rfl, rfl, rfl, rfl⟩ _ _
    (eraseStep_shrinks s.stores v.vin reply v.stage) _ rfl (fun r' hr' => .inl hr') _ _ _
  · intro _
    exact ⟨hopen, happrove, hnext⟩
  · intro hreject
    exact absurd (happrove.symm.trans hreject) (by decide)
  · intro _
    exact eraseStep_erasedUpTo hworks (h.progress v hv happrove)
  · by_cases hvoters : v.stage = .voters
    · right
      refine ⟨if_pos hvoters, hopen, ?_⟩
      intro hbegun
      exact hbegun.2 hvoters
    · exact .inl (if_neg hvoters)
  · intro _
    exact .inr (.inl ⟨hnext', .inl halive⟩)
  · by_cases hvoters : v.stage = .voters
    · exact .inr (if_pos hvoters)
    · exact .inl (if_neg hvoters)

/-- The handler of a review is gone. -/
theorem Lawful.cut (h : s.Lawful) {v : Review} (hv : v ∈ s.reviews) :
    (s.setReview { v with alive := false }).Lawful := by
  apply h.replace hv { v with alive := false } ⟨rfl, rfl, rfl, rfl, rfl⟩ _ (h.rejecting v hv) (.refl _)
    (h.progress v hv) rfl (fun r' hr' => .inl hr') (.inl rfl) _ (.inl rfl)
  · rintro ⟨hended, hdead | hbegun⟩
    · cases hdead
    · exact ⟨⟨hended, .inr hbegun⟩, hbegun⟩
  · intro haffected
    by_cases hopen : v.Open
    · by_cases hbegun : v.Begun
      · exact .inr (.inl ⟨hopen.1, .inr hbegun⟩)
      · exact absurd haffected (h.untouched v hv hopen hbegun)
    · exact .inr (.inr hopen)

theorem Lawful.step (h : s.Lawful) {input : Input} (horderly : s.Orderly input) : (s.step input).Lawful := by
  cases input with
  | request vin reason actor works =>
      simp only [State.step]
      split
      · exact h.request vin reason actor
      · exact h
  | review body reviewer works =>
      simp only [State.step]
      split
      · exact h
      · rename_i v hv
        exact h.review hv horderly
  | advance pid reply =>
      simp only [State.step]
      split
      · exact h
      · rename_i v hfind
        obtain ⟨hv, hpid⟩ := Rows.find?_key hfind
        split
        · rename_i hgoes
          obtain ⟨halive, hended⟩ := hgoes
          by_cases hrecord : v.stage = .record
          · exact h.record hv halive hrecord reply
          · exact h.erase hv halive hrecord hended (horderly v hv hpid halive)
        · exact h
  | cut pid =>
      simp only [State.step]
      split
      · exact h
      · rename_i v hfind
        exact h.cut (Rows.find?_key hfind).1
  | immediate vin reason actor replies works =>
      simp only [State.step]
      rw [if_neg fun hne => hne horderly]
      exact h

/-! ### What the lifecycle promises -/

/-- At most one decision has taken effect on a request, every erasure was started for a request of the voter by
somebody other than its requester, and the voter of an executed request is gone from all four stores. -/
structure Respected (s : State) : Prop where
  once : s.affected.Nodup
  dualControl : ∀ e ∈ s.erasures, ∃ r ∈ s.requests, e.2.2 = some r.id ∧ r.vin = e.1 ∧ e.2.1 ≠ r.requestedBy
  erased : ∀ r ∈ s.requests, r.status = .executed → s.stores.Erased r.vin

def start (stores : Stores) : State := ⟨stores, [], [], [], []⟩

theorem start_lawful (stores : Stores) : (start stores).Lawful :=
  ⟨rfl, rfl, fun _ h => (by cases h), fun _ h => (by cases h), fun _ h => (by cases h), List.nodup_nil,
    fun _ h => (by cases h), fun _ h => (by cases h), fun _ h => (by cases h), fun _ h => (by cases h),
    fun _ h => (by cases h), fun _ h => (by cases h)⟩

/-- The lifecycle is respected in every run whose reviews do not run into each other and whose stores work. -/
theorem respected_of_orderly (stores : Stores) (inputs : List Input)
    (horderly : Runs.AllSteps State.step Orderly (start stores) inputs) :
    ∀ s ∈ Runs.visited State.step (start stores) inputs, s.Respected := by
  have hlawful : ∀ s ∈ Runs.visited State.step (start stores) inputs, s.Lawful :=
    Runs.forall_visited (fun _ _ h hstep => h.step hstep) (start_lawful stores) horderly
  intro s hs
  have h := hlawful s hs
  exact ⟨h.once, h.started, h.executed⟩

def voterRow (vin : String) : VoterRow :=
  ⟨vin, "Ada", "Eze", none, "1990-01-01", some "0800", none, none, some "hash", none⟩

def goodReply : Reply := ⟨.done, .erased, ""⟩

/-- A voter without a biometric profile: two requests, one rejected and one approved and executed. -/
def oneAfterTheOther : List Input :=
  [.request "V1" "moved" 1 true, .request "V1" "asked" 1 true, .review (some ⟨1, "reject", ""⟩) 2 true,
    .advance 0 goodReply, .review (some ⟨2, "approve", ""⟩) 2 true, .advance 1 goodReply, .advance 1 goodReply,
    .advance 1 goodReply, .advance 1 goodReply, .advance 1 goodReply]

theorem respected_of_two_requests :
    Runs.AllSteps State.step Orderly (start ⟨[voterRow "V1"], [⟨"V1", "t"⟩], [], ["V1"], ["V1"]⟩) oneAfterTheOther ∧
      ∀ s ∈ Runs.visited State.step (start ⟨[voterRow "V1"], [⟨"V1", "t"⟩], [], ["V1"], ["V1"]⟩) oneAfterTheOther,
        s.Respected := by
  have horderly : Runs.AllSteps State.step Orderly (start ⟨[voterRow "V1"], [⟨"V1", "t"⟩], [], ["V1"], ["V1"]⟩)
      oneAfterTheOther := by
    decide +kernel
  exact ⟨horderly, respected_of_orderly _ _ horderly⟩

/-- A voter with a biometric profile: the request is approved by another user, every other store answers, and the
request is marked as executed with the fingerprint still in the profile. -/
theorem profile_left_of_executed :
    ¬ ∀ stores inputs, ∀ s ∈ Runs.visited State.step (start stores) inputs, s.Respected := by
  intro h
  have herased := (h ⟨[voterRow "V1"], [⟨"V1", "t"⟩], [⟨"V1", [("fingerprint_hash", "f")]⟩], ["V1"], ["V1"]⟩
    [.request "V1" "asked" 1 true, .review (some ⟨1, "approve", ""⟩) 2 true, .advance 0 goodReply,
      .advance 0 goodReply, .advance 0 goodReply, .advance 0 goodReply, .advance 0 goodReply] _
    (Runs.final_mem_visited _ _)).erased
    ⟨1, "V1", "asked", 1, .executed, some 2, some ""⟩ (by decide +kernel) rfl
  have hprofiles := herased.profiles
  revert hprofiles
  decide +kernel

end State

end Inec.Erasure
