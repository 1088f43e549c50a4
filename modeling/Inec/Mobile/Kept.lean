import Inec.Mobile.Outbox

/-!
# What careful drains keep

A drain is followed from its first group to its last. `Amid` says how far it has come: which rows it has tried, and
which are certainly not parked, so that a mark on them unparks nothing. A batch that throws leaves those rows
unparked that the fallback can mark.
-/

namespace Inec.MobileOutbox

/-! ### Between the statements -/

section Sound

variable (ids old : List Int)

/-- The rows are those there were, and the parked ones are parked and, but for the old ones, logged. -/
structure Sound (w : World) : Prop where
  ids : w.pending.map (·.id) = ids
  logged : ∀ r ∈ w.pending, r.synced = 2 → Logged w r.id ∨ r.id ∈ old
  stays : ∀ id ∈ w.parked, ∃ r ∈ w.pending, r.id = id ∧ r.synced = 2

/-- A drain that has these rows to try, has tried the second ones, and has not parked the third ones. -/
structure Amid (eligible : List Int) (tried free : Int → Prop) (w : World) : Prop extends Sound ids old w where
  eligible : w.eligible = eligible
  tried : ∀ id, tried id → id ∈ w.attempted
  free : ∀ id, free id → id ∉ w.parked

/-- A program that has stopped: what was thrown finds the state as `mid` says, and a kill finds it sound. -/
def Halted (mid : World → Prop) : Halt → World → Prop
  | .thrown _ => mid
  | .killed => Sound ids old

end Sound

section Writes

variable {ids old eligible : List Int} {tried tried' free free' : Int → Prop} {mid : World → Prop} {w : World}

theorem Amid.imp (h : Amid ids old eligible tried free w) (htried : ∀ id, tried' id → tried id)
    (hfree : ∀ id, free' id → free id) : Amid ids old eligible tried' free' w :=
  { h with
    tried := fun id hid => h.tried id (htried id hid)
    free := fun id hid => h.free id (hfree id hid) }

theorem Amid.acknowledge (h : Amid ids old eligible tried free w) (received : List Int) :
    Amid ids old eligible tried free (w.acknowledge received) :=
  ⟨⟨h.ids, h.logged, h.stays⟩, h.eligible, h.tried, h.free⟩

theorem Amid.count (h : Amid ids old eligible tried free w) (f : ResultSyncSummary → ResultSyncSummary) :
    Amid ids old eligible tried free (w.count f) :=
  ⟨⟨h.ids, h.logged, h.stays⟩, h.eligible, h.tried, h.free⟩

theorem Amid.attempt (h : Amid ids old eligible tried free w) (rows : List Int) :
    Amid ids old eligible (fun id => tried id ∨ id ∈ rows) free (w.attempt rows) where
  toSound := ⟨h.ids, h.logged, h.stays⟩
  eligible := h.eligible
  tried := by
    intro id hid
    exact List.mem_append.mpr (hid.symm.imp_right (h.tried id))
  free := h.free

/-- A write that leaves `synced` as it is. -/
theorem Amid.recordFailure (h : Amid ids old eligible tried free w) (row : PendingResult) (message : String) :
    Amid ids old eligible tried free (w.recordFailure row message) where
  ids := (w.ids_recordFailure _ _).trans h.ids
  logged := by
    intro r hr hparked
    obtain ⟨r₀, hr₀, -, rfl⟩ | ⟨hr, -⟩ := Rows.mem_update.mp hr
    · exact h.logged r₀ hr₀ hparked
    · exact h.logged r hr hparked
  stays := by
    intro id hid
    obtain ⟨r, hr, hrid, hparked⟩ := h.stays id hid
    by_cases hrow : r.id = row.id
    · exact ⟨_, Rows.mem_update.mpr (Or.inl ⟨r, hr, hrow, rfl⟩), hrid, hparked⟩
    · exact ⟨r, Rows.mem_update.mpr (Or.inr ⟨hr, hrow⟩), hrid, hparked⟩
  eligible := h.eligible
  tried := h.tried
  free := h.free

/-- A row that is not parked can be marked. -/
theorem Amid.markSynced (h : Amid ids old eligible tried free w) {id : Int} (hfree : free id)
    (note : Option String) : Amid ids old eligible tried free (w.markSynced id note) where
  ids := (w.ids_markSynced _ _).trans h.ids
  logged := by
    intro r hr hparked
    obtain ⟨r₀, hr₀, -, rfl⟩ | ⟨hr, -⟩ := Rows.mem_update.mp hr
    · exact absurd (show (1 : Int) = 2 from hparked) (by decide)
    · exact h.logged r hr hparked
  stays := by
    intro id' hid'
    obtain ⟨r, hr, hrid, hparked⟩ := h.stays id' hid'
    have hne : r.id ≠ id := by
      intro heq
      exact h.free id hfree (heq ▸ hrid ▸ hid')
    exact ⟨r, Rows.mem_update.mpr (Or.inr ⟨hr, hne⟩), hrid, hparked⟩
  eligible := h.eligible
  tried := h.tried
  free := h.free

/-- The two statements of a parking together. -/
theorem Amid.park (h : Amid ids old eligible tried free w) {row : PendingResult} (hrow : row.id ∈ ids)
    (message : String) (error : Option String) :
    Amid ids old eligible tried (fun id => free id ∧ id ≠ row.id)
    ((w.park row.id message).logConflict row error) where
  ids := (w.ids_park _ _).trans h.ids
  logged := by
    intro r hr hparked
    obtain ⟨r₀, hr₀, hid, rfl⟩ | ⟨hr, -⟩ := Rows.mem_update.mp hr
    · exact Or.inl ⟨_, List.mem_append_right _ List.mem_cons_self, rfl, hid.symm⟩
    · obtain ⟨entry, hentry, hlogged⟩ | hold := h.logged r hr hparked
      · exact Or.inl ⟨entry, List.mem_append_left _ hentry, hlogged⟩
      · exact Or.inr hold
  stays := by
    have hwritten : ∀ r ∈ w.pending, r.id = row.id →
        ∃ r' ∈ ((w.park row.id message).logConflict row error).pending, r'.id = row.id ∧ r'.synced = 2 :=
      fun r hr hid => ⟨_, Rows.mem_update.mpr (Or.inl ⟨r, hr, hid, rfl⟩), hid, rfl⟩
    intro id hid
    obtain rfl | hid := List.mem_cons.mp hid
    · obtain ⟨r, hr, hid⟩ := List.mem_map.mp (h.ids ▸ hrow)
      exact hwritten r hr hid
    · obtain ⟨r, hr, hrid, hparked⟩ := h.stays id hid
      by_cases hsame : r.id = row.id
      · rw [← hrid, hsame]
        exact hwritten r hr hsame
      · exact ⟨r, Rows.mem_update.mpr (Or.inr ⟨hr, hsame⟩), hrid, hparked⟩
  eligible := h.eligible
  tried := h.tried
  free := by
    intro id hid hparked
    obtain rfl | hparked := List.mem_cons.mp hparked
    · exact hid.2 rfl
    · exact h.free id hid.1 hparked

/-! ### The statements -/

variable {env : SyncEnv} {pre : World → Prop} {post : World → Prop}

theorem ensures_await {α : Type} {outcome : Outcome α} {post : α → World → Prop}
    (hdone : ∀ a, outcome = .done a → ∀ w, pre w → post a w)
    (hkilled : outcome = .killed → ∀ w, pre w → Sound ids old w)
    (hthrown : outcome.throws = true → ∀ w, pre w → mid w) :
    Raising.Ensures pre (await outcome) post (Halted ids old mid) := by
  cases outcome with
  | done a => exact Raising.ensures_pure a (hdone a rfl)
  | thrown message => exact Raising.ensures_throw _ (hthrown rfl)
  | killed => exact Raising.ensures_throw _ (hkilled rfl)

theorem ensures_runAsync {outcome : Outcome Unit} {write : World → World}
    (hdone : outcome.answers = true → ∀ w, pre w → post (write w))
    (hkilled : outcome = .killed → ∀ w, pre w → Sound ids old w)
    (hthrown : outcome.throws = true → ∀ w, pre w → mid w) :
    Raising.Ensures pre (runAsync outcome write) (fun _ => post) (Halted ids old mid) := by
  refine Raising.ensures_bind (fun _ w => outcome.answers = true ∧ pre w) ?_ fun _ => ?_
  · refine ensures_await (fun a ha w hw => ?_) hkilled hthrown
    exact ⟨by rw [ha]; rfl, hw⟩
  · exact Raising.ensures_modify _ fun w hw => hdone hw.1 w hw.2

/-- What was thrown goes to the handler, and a kill goes through. -/
theorem ensures_catching {α : Type} {body : Sync α} {handler : String → Sync α} {post : α → World → Prop}
    (caught : World → Prop) (hbody : Raising.Ensures pre body post (Halted ids old caught))
    (hhandler : ∀ message, Raising.Ensures caught (handler message) post (Halted ids old mid)) :
    Raising.Ensures pre (catching body handler) post (Halted ids old mid) := by
  refine Raising.ensures_tryCatch _ hbody fun halt => ?_
  cases halt with
  | thrown message => exact hhandler message
  | killed => exact Raising.ensures_throw _ fun w hw => hw

theorem ensures_parseJson (ok : Bool) (h : ∀ w, pre w → mid w) :
    Raising.Ensures pre (parseJson ok) (fun _ => pre) (Halted ids old mid) := by
  unfold parseJson
  split
  · exact Raising.ensures_pure _ fun _ hw => hw
  · exact Raising.ensures_throw _ h

theorem ensures_parkConflict {path : Path} {row : PendingResult} {error : Option String} (hrow : row.id ∈ ids)
    (hlogs : (env.write path .park row.id).answers = true → (env.write path .log row.id).answers = true)
    (hmid : (env.write path .park row.id).throws = true → ∀ w, Amid ids old eligible tried free w → mid w) :
    Raising.Ensures (Amid ids old eligible tried free) (parkConflict env path row error)
      (fun _ => Amid ids old eligible tried fun id => free id ∧ id ≠ row.id) (Halted ids old mid) := by
  refine Raising.ensures_bind (fun _ w => (env.write path .log row.id).answers = true ∧
    ∃ before message, Amid ids old eligible tried free before ∧ w = before.park row.id message) ?_ fun _ => ?_
  · refine ensures_runAsync (fun hpark w hw => ?_) (fun _ w hw => hw.toSound) hmid
    exact ⟨hlogs hpark, w, _, hw, rfl⟩
  · refine ensures_runAsync ?_ ?_ ?_
    · rintro - w ⟨-, before, message, hbefore, rfl⟩
      exact hbefore.park hrow message error
    · intro hkilled w hw
      rw [hkilled] at hw
      cases hw.1
    · intro hthrows w hw
      cases houtcome : env.write path .log row.id <;> rw [houtcome] at hw hthrows
      · cases hthrows
      · cases hw.1
      · cases hthrows

theorem ensures_recordFailure {path : Path} {row : PendingResult} {message : String}
    (hmid : (env.write path .failure row.id).throws = true → ∀ w, Amid ids old eligible tried free w → mid w) :
    Raising.Ensures (Amid ids old eligible tried free) (recordFailure env path row message)
      (fun _ => Amid ids old eligible tried free) (Halted ids old mid) :=
  ensures_runAsync (fun _ _ hw => hw.recordFailure row message) (fun _ _ hw => hw.toSound) hmid

theorem ensures_markSynced {outcome : Outcome Unit} {id : Int} {note : Option String} (hfree : free id)
    (hmid : outcome.throws = true → ∀ w, Amid ids old eligible tried free w → mid w) :
    Raising.Ensures (Amid ids old eligible tried free) (runAsync outcome (·.markSynced id note))
      (fun _ => Amid ids old eligible tried free) (Halted ids old mid) :=
  ensures_runAsync (fun _ _ hw => hw.markSynced hfree note) (fun _ _ hw => hw.toSound) hmid

theorem ensures_count {f : ResultSyncSummary → ResultSyncSummary} :
    Raising.Ensures (Amid ids old eligible tried free) (modify (·.count f) : Sync Unit)
      (fun _ => Amid ids old eligible tried free) (Halted ids old mid) :=
  Raising.ensures_modify _ fun _ hw => hw.count f

theorem ensures_received {received : List Int} :
    Raising.Ensures (Amid ids old eligible tried free) (modify (·.acknowledge received) : Sync Unit)
      (fun _ => Amid ids old eligible tried free) (Halted ids old mid) :=
  Raising.ensures_modify _ fun _ hw => hw.acknowledge received

theorem ensures_attempt {rows : List Int} :
    Raising.Ensures (Amid ids old eligible tried free) (modify (·.attempt rows) : Sync Unit)
      (fun _ => Amid ids old eligible (fun id => tried id ∨ id ∈ rows) free) (Halted ids old mid) :=
  Raising.ensures_modify _ fun _ hw => hw.attempt rows

end Writes

/-! ### One group -/

section Group

variable {ids old eligible : List Int} {tried free : Int → Prop} {mid : World → Prop} {env : SyncEnv}
  {key : Int × String} {group : List PendingResult}

/-- The rows of a group: they are in the table, each once, and their statements are as a careful drain has them. -/
structure CarefulGroup (ids : List Int) (env : SyncEnv) (key : Int × String) (group : List PendingResult) :
    Prop where
  distinct : (group.map (·.id)).Nodup
  present : ∀ row ∈ group, row.id ∈ ids
  logs : ∀ row ∈ group, ∀ path ∈ [Path.batch, Path.item],
    (env.write path .park row.id).answers = true → (env.write path .log row.id).answers = true
  handles : ∀ row ∈ group, (env.write .refused .failure row.id).throws = false ∧
    (env.write .item .failure row.id).throws = false ∧ (env.write .item .park row.id).throws = false
  settles : SettlesConflicts env key group

/-- Rows that are not parked after the batch. Those of the group are among them if the group is not dealt with and
the fallback has a success for them. -/
def FreeAfter (env : SyncEnv) (group : List PendingResult) (free : Int → Prop) (dealt : Bool) (id : Int) : Prop :=
  free id ∧ (id ∈ group.map (·.id) → dealt = false ∧ (env.submit id).answers = true)

theorem ensures_applyAction {row : PendingResult} {action : OutboxAction} (hrow : row.id ∈ ids)
    (hfree : free row.id)
    (hlogs : (env.write .batch .park row.id).answers = true → (env.write .batch .log row.id).answers = true)
    (hmid : (env.write .batch action.statement row.id).throws = true →
      ∀ w, Amid ids old eligible tried free w → mid w) :
    Raising.Ensures (Amid ids old eligible tried free) (applyAction env row action)
      (fun _ => Amid ids old eligible tried fun id => free id ∧ (action.action = .markConflict → id ≠ row.id))
      (Halted ids old mid) := by
  have hsame : ∀ w, Amid ids old eligible tried free w → Amid ids old eligible tried
      (fun id => free id ∧ (action.action = .markConflict → id ≠ row.id)) w :=
    fun w hw => hw.imp (fun _ h => h) fun _ h => h.1
  unfold OutboxAction.statement at hmid
  unfold applyAction
  cases haction : action.action with
  | markSynced =>
      rw [haction] at hmid hsame
      refine Raising.Ensures.imp_post (Raising.ensures_bind _
        (ensures_markSynced hfree hmid) fun _ => ensures_count) ?_
      exact fun _ => hsame
  | markDuplicate =>
      rw [haction] at hmid hsame
      refine Raising.Ensures.imp_post (Raising.ensures_bind _
        (ensures_markSynced hfree hmid) fun _ => ensures_count) ?_
      exact fun _ => hsame
  | markConflict =>
      rw [haction] at hmid
      refine Raising.Ensures.imp_post (Raising.ensures_bind _ (ensures_parkConflict hrow hlogs hmid) fun _ =>
        ensures_count) ?_
      exact fun _ w hw => hw.imp (fun _ h => h) fun _ h => ⟨h.1, h.2 rfl⟩
  | markFailed =>
      rw [haction] at hmid hsame
      refine Raising.Ensures.imp_post (Raising.ensures_bind _ ensures_count fun _ => ensures_recordFailure hmid) ?_
      exact fun _ => hsame

/-- Rows of a group with one id are at one place of it. -/
theorem CarefulGroup.index_eq (h : CarefulGroup ids env key group) {i j : Nat} {row row' : PendingResult}
    (hrow : group[i]? = some row) (hrow' : group[j]? = some row') (hid : row.id = row'.id) : i = j := by
  obtain ⟨hi, -⟩ := List.getElem?_eq_some_iff.mp hrow
  refine (List.getElem?_inj (by rwa [List.length_map]) h.distinct).mp ?_
  rw [List.getElem?_map, List.getElem?_map, hrow, hrow', Option.map_some, Option.map_some, hid]

/-- The loop over the actions. The outcomes that are written down have parked the conflicts among them; if the next
one throws, the fallback has no success for these. -/
theorem ensures_applyActions (h : CarefulGroup ids env key group) (hfree : ∀ row ∈ group, free row.id)
    {items : Option (List SyncItemOutcome)} (hanswer : env.offlineSync key.1 key.2 = .done items) :
    Raising.Ensures (Amid ids old eligible tried free)
      (applyActions env group (mapItemOutcomes items group.length))
      (fun _ => Amid ids old eligible tried (FreeAfter env group free true))
      (Halted ids old (Amid ids old eligible tried (FreeAfter env group free false))) := by
  have hspec := mapOutcomes_spec group.length [] (items.getD [])
  have hsettles := h.settles items (by rw [hanswer]; rfl)
  refine Raising.Ensures.imp (Raising.ensures_forM (fun done => Amid ids old eligible tried fun id => free id ∧
    ∀ action ∈ done, action.action = .markConflict → ∀ row ∈ group[action.index]?, row.id ≠ id)
      (mapItemOutcomes items group.length) ?_) ?_ ?_ fun _ _ hhalt => hhalt
  · intro done action rest hsplit
    have haction : action ∈ mapItemOutcomes items group.length := by
      rw [hsplit]
      exact List.mem_append_right _ List.mem_cons_self
    obtain ⟨-, item, -, hplace, -⟩ := hspec.1 action haction
    obtain ⟨row, hrow⟩ : ∃ row, group[action.index]? = some row :=
      ⟨_, List.getElem?_eq_getElem (place_eq_some hplace)⟩
    have hmem : row ∈ group := List.mem_of_getElem? hrow
    rw [hrow]
    -- an earlier conflict is at another place, so about another row
    have hearlier : ∀ conflict ∈ done, conflict.index ≠ action.index := by
      intro conflict hconflict
      have hnodup := hspec.2
      rw [show mapOutcomes group.length [] (items.getD []) = done ++ action :: rest from hsplit, List.map_append,
        List.nodup_append] at hnodup
      exact hnodup.2.2 _ (List.mem_map_of_mem hconflict) _ List.mem_cons_self
    refine Raising.Ensures.imp_post (ensures_applyAction (h.present row hmem) ?_
      (h.logs row hmem _ List.mem_cons_self) ?_) ?_
    · refine ⟨hfree row hmem, ?_⟩
      intro conflict hconflict _ row' hrow' hid
      exact hearlier conflict hconflict (h.index_eq hrow' hrow hid)
    · intro hthrows w hw
      refine hw.imp (fun _ hid => hid) fun id hid => ⟨hid.1, ?_⟩
      intro conflict hconflict hkind row' hrow' heq
      rw [hsplit] at hsettles
      rcases (List.pairwise_append.mp hsettles).2.2 conflict hconflict action List.mem_cons_self hkind with
        hwritten | hunanswered
      · rw [hwritten row hrow] at hthrows
        cases hthrows
      · have hanswers := (hid.2 (List.mem_map.mpr ⟨row', List.mem_of_getElem? hrow', heq⟩)).2
        rw [← heq, hunanswered row' hrow'] at hanswers
        cases hanswers
    · refine fun _ w hw => hw.imp (fun _ hid => hid) fun id hid => ⟨⟨hid.1, ?_⟩, ?_⟩
      · exact fun conflict hconflict => hid.2 conflict (List.mem_append_left _ hconflict)
      · intro hkind heq
        exact hid.2 action (List.mem_append_right _ List.mem_cons_self) hkind row hrow heq.symm
  · refine fun w hw => hw.imp (fun _ hid => hid) fun _ hid => hid.1
  · refine fun _ w hw => hw.imp (fun _ hid => hid) fun id hid => ⟨hid.1, ?_⟩
    intro action _ _ row hrow heq
    have hmem : id ∈ group.map (·.id) := List.mem_map.mpr ⟨row, List.mem_of_getElem? hrow, heq⟩
    exact absurd (hid.2 hmem).1 (by decide)

/-- A batch deals with its group, or leaves it to the fallback. -/
theorem ensures_submitBatch (h : CarefulGroup ids env key group) (hfree : ∀ row ∈ group, free row.id) :
    Raising.Ensures (Amid ids old eligible tried free) (submitBatch env key.1 key.2 group)
      (fun dealt => Amid ids old eligible tried (FreeAfter env group free dealt))
      (Halted ids old fun _ => False) := by
  have hweaken : ∀ dealt w, Amid ids old eligible tried free w →
      Amid ids old eligible tried (FreeAfter env group free dealt) w :=
    fun dealt w hw => hw.imp (fun _ hid => hid) fun _ hid => hid.1
  refine ensures_catching (Amid ids old eligible tried (FreeAfter env group free false)) ?_ fun message => ?_
  · refine Raising.ensures_bind _ (ensures_parseJson _ (hweaken false)) fun _ => ?_
    refine Raising.ensures_bind (fun items w => env.offlineSync key.1 key.2 = .done items ∧
      Amid ids old eligible tried free w) ?_ fun items => ?_
    · exact ensures_await (fun items hitems w hw => ⟨hitems, hw⟩) (fun _ w hw => hw.toSound) fun _ => hweaken false
    · refine Raising.ensures_of_and fun hanswer => ?_
      refine Raising.ensures_bind _ ensures_received fun _ => ?_
      refine Raising.ensures_bind _ (ensures_applyActions h hfree hanswer) fun _ => ?_
      exact Raising.ensures_pure true fun _ hw => hw
  · split
    · have hkeep : Raising.Ensures (Amid ids old eligible tried (FreeAfter env group free false))
          (group.forM fun row => recordFailure env .refused row message)
          (fun _ => Amid ids old eligible tried (FreeAfter env group free false))
            (Halted ids old fun _ => False) := by
        refine Raising.ensures_forM (fun _ => Amid ids old eligible tried (FreeAfter env group free false)) group ?_
        intro done row rest hsplit
        have hmem : row ∈ group := hsplit ▸ List.mem_append_right _ List.mem_cons_self
        refine ensures_recordFailure fun hthrows => ?_
        rw [(h.handles row hmem).1] at hthrows
        cases hthrows
      refine Raising.ensures_bind _ ensures_count fun _ => Raising.ensures_bind _ hkeep fun _ => ?_
      refine Raising.ensures_pure true fun w hw => hw.imp (fun _ hid => hid) fun id hid => ⟨hid.1, ?_⟩
      exact fun hmem => absurd (hid.2 hmem).1 (by decide)
    · exact Raising.ensures_pure false fun w hw => hw

/-- A row is tried by itself. It is not parked if there is a success to write down. -/
theorem ensures_submitItem (h : CarefulGroup ids env key group) {row : PendingResult} (hmem : row ∈ group)
    (hfree : (env.submit row.id).answers = true → free row.id) :
    Raising.Ensures (Amid ids old eligible tried free) (submitItem env row)
      (fun _ => Amid ids old eligible (fun id => tried id ∨ id ∈ [row.id]) fun id => free id ∧ id ≠ row.id)
      (Halted ids old fun _ => False) := by
  have hweaken : ∀ w, Amid ids old eligible (fun id => tried id ∨ id ∈ [row.id]) free w →
      Amid ids old eligible (fun id => tried id ∨ id ∈ [row.id]) (fun id => free id ∧ id ≠ row.id) w :=
    fun w hw => hw.imp (fun _ hid => hid) fun _ hid => hid.1
  obtain ⟨-, hfailure, hpark⟩ := h.handles row hmem
  refine Raising.ensures_bind _ ensures_attempt fun _ => ?_
  refine ensures_catching (Amid ids old eligible (fun id => tried id ∨ id ∈ [row.id]) free) ?_ fun message => ?_
  · refine Raising.ensures_bind _ (ensures_parseJson _ fun _ hw => hw) fun _ => ?_
    refine Raising.ensures_bind (fun _ w => (env.submit row.id).answers = true ∧
      Amid ids old eligible (fun id => tried id ∨ id ∈ [row.id]) free w) ?_ fun duplicate => ?_
    · refine ensures_await (fun duplicate hanswer w hw => ⟨?_, hw⟩) (fun _ w hw => hw.toSound) fun _ w hw => hw
      rw [hanswer]
      rfl
    · refine Raising.ensures_of_and fun hanswers => ?_
      refine Raising.ensures_bind _ ensures_received fun _ => ?_
      have hmark : ∀ note f, Raising.Ensures (Amid ids old eligible (fun id => tried id ∨ id ∈ [row.id]) free)
          (do runAsync (env.write .item .mark row.id) (·.markSynced row.id note); modify (·.count f))
          (fun _ => Amid ids old eligible (fun id => tried id ∨ id ∈ [row.id]) fun id => free id ∧ id ≠ row.id)
          (Halted ids old (Amid ids old eligible (fun id => tried id ∨ id ∈ [row.id]) free)) := by
        intro note f
        refine Raising.ensures_bind _ (ensures_markSynced (hfree hanswers) fun _ _ hw => hw) fun _ => ?_
        exact Raising.ensures_modify _ fun w hw => hweaken _ (hw.count f)
      split
      · exact hmark _ _
      · exact hmark _ _
  · split
    · refine Raising.ensures_bind _ (ensures_parkConflict (h.present row hmem) ?_ fun hthrows => ?_) fun _ =>
        ensures_count
      · exact h.logs row hmem _ (List.mem_cons_of_mem _ List.mem_cons_self)
      · rw [hpark] at hthrows
        cases hthrows
    · refine Raising.ensures_bind _ ensures_count fun _ => ?_
      refine Raising.Ensures.imp_post (ensures_recordFailure fun hthrows => ?_) fun _ => hweaken
      rw [hfailure] at hthrows
      cases hthrows

/-- A group is tried as a whole, whichever way is taken. -/
theorem ensures_syncGroup (h : CarefulGroup ids env key group) (hfree : ∀ row ∈ group, free row.id) :
    Raising.Ensures (Amid ids old eligible tried free) (syncGroup env key group)
      (fun _ => Amid ids old eligible (fun id => tried id ∨ id ∈ group.map (·.id))
        fun id => free id ∧ id ∉ group.map (·.id))
      (Halted ids old fun _ => False) := by
  refine Raising.ensures_bind (fun dealt => Amid ids old eligible
    (fun id => tried id ∨ (dealt = true ∧ id ∈ group.map (·.id)))
      (FreeAfter env group free dealt)) ?_ fun dealt => ?_
  · unfold tryBatch
    split
    · refine Raising.ensures_pure false fun w hw => hw.imp (fun id hid => ?_) fun _ hid => hid.1
      exact hid.resolve_right fun hfalse => absurd hfalse.1 (by decide)
    · refine Raising.ensures_bind _ ensures_attempt fun _ => ?_
      refine Raising.Ensures.imp_post (ensures_submitBatch h hfree) fun dealt w hw => ?_
      exact hw.imp (fun _ hid => hid.imp_right (·.2)) fun _ hid => hid
  · cases dealt with
    | true =>
        refine Raising.ensures_pure _ fun w hw => hw.imp (fun _ hid => hid.imp_right fun h => ⟨rfl, h⟩) ?_
        exact fun id hid => ⟨hid.1, fun hmem => absurd hmem hid.2⟩
    | false =>
        refine Raising.Ensures.imp (Raising.ensures_forM (fun done => Amid ids old eligible
          (fun id => tried id ∨ id ∈ done.map (·.id)) fun id => FreeAfter env group free false id ∧
            id ∉ done.map (·.id)) group ?_) ?_ ?_ fun _ _ hhalt => hhalt
        · intro done row rest hsplit
          have hmem : row ∈ group := hsplit ▸ List.mem_append_right _ List.mem_cons_self
          refine Raising.Ensures.imp_post (ensures_submitItem h hmem fun hanswers => ?_) fun _ w hw => ?_
          · refine ⟨⟨hfree row hmem, fun _ => ⟨rfl, hanswers⟩⟩, ?_⟩
            have hnodup := h.distinct
            rw [hsplit, List.map_append, List.nodup_append] at hnodup
            exact fun hdone => hnodup.2.2 _ hdone _ List.mem_cons_self rfl
          · refine hw.imp (fun id hid => ?_) fun id hid => ⟨⟨hid.1, ?_⟩, ?_⟩
            · rw [List.map_append, List.mem_append] at hid
              exact or_assoc.mpr hid
            · exact fun hdone => hid.2 (by rw [List.map_append]; exact List.mem_append_left _ hdone)
            · rintro rfl
              exact hid.2 (by rw [List.map_append]; exact List.mem_append_right _ List.mem_cons_self)
        · refine fun w hw => hw.imp (fun id hid => ?_) fun _ hid => hid.1
          exact Or.inl (hid.resolve_right List.not_mem_nil)
        · exact fun _ w hw => hw.imp (fun _ hid => hid) fun id hid =>
            ⟨⟨hid.1, fun hmem => absurd hmem hid.2⟩, hid.2⟩

end Group

/-! ### A drain and a run -/

theorem mem_eligibleRows {w : World} {row : PendingResult} (h : row ∈ w.eligibleRows) :
    row ∈ w.pending ∧ row.synced = 0 := by
  have hsorted := List.mem_of_mem_filter h
  rw [List.mem_insertionSort, List.mem_filter, beq_iff_eq] at hsorted
  exact hsorted

theorem nodup_eligibleRows (w : World) : (w.eligibleRows.map (·.id)).Nodup := by
  have hperm := (w.pending.filter fun r => r.synced == 0).perm_insertionSort fun a b => a.createdAt ≤ b.createdAt
  have hnodup : ((w.pending.filter fun r => r.synced == 0).map (·.id)).Nodup :=
    w.distinct.sublist (List.filter_sublist.map _)
  exact ((hperm.map _).nodup_iff.mpr hnodup).sublist (List.filter_sublist.map _)

/-- A drain has not begun with its rows, or has tried all of them. -/
def AllTried (w : World) : Prop := w.attempted = [] ∨ ∀ id ∈ w.eligible, id ∈ w.attempted

section Run

variable {start w : World} {env : SyncEnv} {ids old : List Int}

theorem Careful.group (h : Careful w env) (hsound : Sound ids old w) {key : Int × String}
    (hkey : key ∈ groupKeys w.eligibleRows) : CarefulGroup ids env key (groupOf w.eligibleRows key) where
  distinct := (nodup_eligibleRows w).sublist (List.filter_sublist.map _)
  present := by
    intro row hrow
    rw [← hsound.ids]
    exact List.mem_map_of_mem (mem_eligibleRows (List.mem_of_mem_filter hrow)).1
  logs := fun row hrow => h.logs row (List.mem_of_mem_filter hrow)
  handles := fun row hrow => h.handles row (List.mem_of_mem_filter hrow)
  settles := h.settles key hkey

/-- A row that waits is not parked. -/
theorem Sound.not_parked (h : Sound ids old w) {row : PendingResult} (hrow : row ∈ w.eligibleRows) :
    row.id ∉ w.parked := by
  intro hparked
  obtain ⟨r, hr, hid, hsynced⟩ := h.stays row.id hparked
  obtain ⟨hmem, hwaits⟩ := mem_eligibleRows hrow
  rw [Rows.eq_of_key_eq w.distinct hr hmem hid, hwaits] at hsynced
  exact absurd hsynced (by decide)

/-- The groups that are done have been tried, and the rows of the others are not parked. -/
theorem ensures_groups (hcareful : Careful w env) (hsound : Sound ids old w) :
    Raising.Ensures
      (Amid ids old (w.eligibleRows.map (·.id)) (fun _ => False) fun id => id ∈ w.eligibleRows.map (·.id))
      ((groupKeys w.eligibleRows).forM fun key => syncGroup env key (groupOf w.eligibleRows key))
      (fun _ => Amid ids old (w.eligibleRows.map (·.id)) (fun id => id ∈ w.eligibleRows.map (·.id)) fun _ => False)
      (Halted ids old fun _ => False) := by
  refine Raising.Ensures.imp (Raising.ensures_forM (fun done => Amid ids old (w.eligibleRows.map (·.id))
    (fun id => ∃ row ∈ w.eligibleRows, row.id = id ∧ row.key ∈ done)
    fun id => ∃ row ∈ w.eligibleRows, row.id = id ∧ row.key ∉ done) (groupKeys w.eligibleRows) ?_) ?_ ?_
    fun _ _ hhalt => hhalt
  · intro done key rest hsplit
    have hkey : key ∈ groupKeys w.eligibleRows := hsplit ▸ List.mem_append_right _ List.mem_cons_self
    have hnew : key ∉ done := by
      have hnodup : (groupKeys w.eligibleRows).Nodup := Rows.nodup_eraseDups _
      rw [hsplit, List.nodup_append] at hnodup
      exact fun hdone => hnodup.2.2 key hdone key List.mem_cons_self rfl
    have hmem : ∀ row, row ∈ groupOf w.eligibleRows key ↔ row ∈ w.eligibleRows ∧ row.key = key := by
      intro row
      rw [groupOf, List.mem_filter, beq_iff_eq]
    refine Raising.Ensures.imp_post (ensures_syncGroup (hcareful.group hsound hkey) ?_) fun _ after hafter => ?_
    · intro row hrow
      obtain ⟨heligible, hrowKey⟩ := (hmem row).mp hrow
      exact ⟨row, heligible, rfl, hrowKey ▸ hnew⟩
    · refine hafter.imp ?_ ?_
      · rintro id ⟨row, hrow, rfl, hdone⟩
        rcases List.mem_append.mp hdone with hdone | hlast
        · exact Or.inl ⟨row, hrow, rfl, hdone⟩
        · exact Or.inr (List.mem_map_of_mem ((hmem row).mpr ⟨hrow, List.mem_singleton.mp hlast⟩))
      · rintro id ⟨row, hrow, rfl, hleft⟩
        rw [List.mem_append, not_or] at hleft
        refine ⟨⟨row, hrow, rfl, hleft.1⟩, ?_⟩
        intro hgroup
        obtain ⟨row', hrow', hid⟩ := List.mem_map.mp hgroup
        obtain ⟨hrow', hkey'⟩ := (hmem row').mp hrow'
        rw [Rows.eq_of_key_eq (nodup_eligibleRows w) hrow' hrow hid] at hkey'
        exact hleft.2 (hkey' ▸ List.mem_singleton_self _)
  · intro before hbefore
    refine hbefore.imp ?_ ?_
    · rintro id ⟨row, -, -, hdone⟩
      exact List.not_mem_nil hdone
    · rintro id ⟨row, hrow, rfl, -⟩
      exact List.mem_map_of_mem hrow
  · intro _ after hafter
    refine hafter.imp ?_ fun _ hid => hid.elim
    intro id hid
    obtain ⟨row, hrow, rfl⟩ := List.mem_map.mp hid
    exact ⟨row, hrow, rfl, List.mem_eraseDups.mpr (List.mem_map_of_mem hrow)⟩

theorem ensures_syncPendingResults (hcareful : Careful w env) (hsound : Sound ids old w) :
    Raising.Ensures (· = w.fresh) (syncPendingResults env) (fun _ after => Sound ids old after ∧ AllTried after)
      (Halted ids old fun after => Sound ids old after ∧ AllTried after) := by
  have hfresh : ∀ after, after = w.fresh → Sound ids old after ∧ AllTried after := by
    rintro after rfl
    exact ⟨⟨hsound.ids, hsound.logged, hsound.stays⟩, Or.inl rfl⟩
  unfold syncPendingResults
  split
  · refine Raising.ensures_bind (fun _ => (· = w.fresh)) ?_ fun _ => Raising.ensures_get_bind ?_
    · exact ensures_await (fun _ _ _ hw => hw) (fun _ after hafter => (hfresh after hafter).1) fun _ => hfresh
    · rintro before rfl
      refine Raising.ensures_bind (fun _ => Amid ids old (w.eligibleRows.map (·.id)) (fun _ => False)
        fun id => id ∈ w.eligibleRows.map (·.id)) ?_ fun _ => ?_
      · refine Raising.ensures_modify _ ?_
        rintro before rfl
        refine ⟨⟨hsound.ids, hsound.logged, hsound.stays⟩, rfl, fun _ hid => hid.elim, ?_⟩
        intro id hid
        obtain ⟨row, hrow, rfl⟩ := List.mem_map.mp hid
        exact hsound.not_parked hrow
      · refine (ensures_groups hcareful hsound).imp (fun _ hw => hw)
          (fun _ after hafter => ?_) fun halt after hafter => ?_
        · refine ⟨hafter.toSound, Or.inr fun id hid => hafter.tried id ?_⟩
          rwa [hafter.eligible] at hid
        · cases halt with
          | thrown message => exact hafter.elim
          | killed => exact hafter
  · exact Raising.ensures_pure _ hfresh

/-- What a run of careful drains keeps. -/
structure Going (start w : World) : Prop where
  honest : Honest start [] w
  sound : Sound (start.pending.map (·.id)) start.parked w
  tried : w.killed = true ∨ AllTried w

/-- A drain leaves the outbox sound, and every row tried unless it was killed. -/
theorem sound_step (hcareful : Careful w env) (hsound : Sound ids old w) :
    Sound ids old (step w env) ∧ ((step w env).killed = true ∨ AllTried (step w env)) := by
  have hdrain := ensures_syncPendingResults hcareful hsound w.fresh rfl
  rw [MobileOutbox.step]
  rcases hrun : Raising.exec (syncPendingResults env) w.fresh with ⟨answer, after⟩
  rw [hrun] at hdrain
  match answer, hdrain with
  | .error (.thrown _), hdrain => exact ⟨⟨hdrain.1.ids, hdrain.1.logged, hdrain.1.stays⟩, Or.inr hdrain.2⟩
  | .error .killed, hdrain => exact ⟨⟨hdrain.ids, hdrain.logged, hdrain.stays⟩, Or.inl rfl⟩
  | .ok _, hdrain => exact ⟨⟨hdrain.1.ids, hdrain.1.logged, hdrain.1.stays⟩, Or.inr hdrain.2⟩

theorem Going.step (h : Going start w) (hcareful : Careful w env) : Going start (step w env) := by
  obtain ⟨hsound, htried⟩ := sound_step hcareful h.sound
  exact ⟨honest_step env h.honest, hsound, htried⟩

theorem Going.kept (h : Going start w) : Kept start w where
  present := h.honest.present
  acknowledged := h.honest.acknowledged
  logged := h.sound.logged
  stays := h.sound.stays
  attempted := h.tried

theorem going_opened {pending : List PendingResult} {conflictLog : List ConflictLog}
    {distinct : (pending.map (·.id)).Nodup} :
    Going (opened pending conflictLog distinct) (opened pending conflictLog distinct) where
  honest := by
    refine ⟨rfl, ?_, fun _ hid => absurd hid List.not_mem_nil⟩
    intro r hr hdone
    exact List.mem_map.mpr ⟨r, List.mem_filter.mpr ⟨hr, beq_iff_eq.mpr hdone⟩, rfl⟩
  sound := by
    refine ⟨rfl, ?_, ?_⟩
    · intro r hr hparked
      exact Or.inr (List.mem_map.mpr ⟨r, List.mem_filter.mpr ⟨hr, beq_iff_eq.mpr hparked⟩, rfl⟩)
    · intro id hid
      obtain ⟨r, hr, rfl⟩ := List.mem_map.mp hid
      exact ⟨r, (List.mem_filter.mp hr).1, rfl, beq_iff_eq.mp (List.mem_filter.mp hr).2⟩
  tried := Or.inr (Or.inl rfl)

/-- No drain loses a row or takes one for received that is not, whatever fails in it. -/
theorem honest_of_run (pending : List PendingResult) (conflictLog : List ConflictLog)
    (distinct : (pending.map (·.id)).Nodup) (drains : List SyncEnv) :
    ∀ w ∈ Runs.visited MobileOutbox.step (opened pending conflictLog distinct) drains,
      Honest (opened pending conflictLog distinct) [] w := by
  apply Runs.forall_visited_of_step
  · exact fun w env h => honest_step env h
  · exact going_opened.honest

/-- Careful drains keep all the outbox owes its rows. -/
theorem kept_of_careful (pending : List PendingResult) (conflictLog : List ConflictLog)
    (distinct : (pending.map (·.id)).Nodup) (drains : List SyncEnv)
    (hcareful : Runs.AllSteps MobileOutbox.step Careful (opened pending conflictLog distinct) drains) :
    ∀ w ∈ Runs.visited MobileOutbox.step (opened pending conflictLog distinct) drains,
      Kept (opened pending conflictLog distinct) w := by
  intro w hw
  have hstep : ∀ w env, Going (opened pending conflictLog distinct) w → Careful w env →
      Going (opened pending conflictLog distinct) (MobileOutbox.step w env) := fun _ _ h hcond => h.step hcond
  exact (Runs.forall_visited hstep going_opened hcareful w hw).kept

end Run

section Drains

/-- A result of the unit, not tried yet. -/
def capturedAt (id : Int) (code : String) : PendingResult :=
  ⟨id, 1, code, "[]", "key-" ++ toString id, "2027-02-20T15:00:00Z", some 0, none, 0⟩

/-- A drain in which the server has these outcomes for a batch, and nothing fails. -/
def drainWith (items : List SyncItemOutcome) : SyncEnv where
  isConnected := true
  hasToken := true
  opens := .done ()
  parses := fun _ => true
  deviceId := fun _ code => if code = "PU-1" then some "BVAS-1" else none
  offlineSync := fun _ _ => .done (some items)
  submit := fun _ => .done false
  write := fun _ _ _ => .done ()

/-- The same with some statements and some answers for single rows replaced. -/
def SyncEnv.failing (env : SyncEnv) (statements : List (Path × Statement × Int × Outcome Unit))
    (submits : List (Int × Outcome Bool)) : SyncEnv :=
  { env with
    submit := fun id => ((submits.find? fun s => s.1 == id).map (·.2)).getD (env.submit id)
    write := fun path statement id =>
      ((statements.find? fun s => s.1 == path && s.2.1 == statement && s.2.2.1 == id).map (·.2.2.2)).getD
        (env.write path statement id) }

/-- A conflict, a received row and a row without an outcome; a batch whose outcome cannot be written down; the app
killed; and the last row at last. -/
def threeDrains : List SyncEnv :=
  [(drainWith [⟨some 0, "conflict", none⟩, ⟨some 1, "queued", none⟩, ⟨some 1, "rejected", none⟩,
      ⟨some 7, "queued", none⟩, ⟨none, "queued", none⟩]).failing [] [(4,
        .thrown "TypeError: Network request failed")],
    (drainWith [⟨some 0, "queued", none⟩]).failing
      [(.batch, .mark, 3, .thrown "Error: database is locked"), (.item, .mark, 4, .killed)] [(3, .done true)],
    drainWith []]

theorem kept_threeDrains :
    Runs.AllSteps step Careful (opened [capturedAt 1 "PU-1", capturedAt 2 "PU-1", capturedAt 3 "PU-1",
      capturedAt 4 "PU-2"] [] (by decide)) threeDrains ∧
    ∀ w ∈ Runs.visited step (opened [capturedAt 1 "PU-1", capturedAt 2 "PU-1", capturedAt 3 "PU-1",
        capturedAt 4 "PU-2"] [] (by decide)) threeDrains,
      Kept (opened [capturedAt 1 "PU-1", capturedAt 2 "PU-1", capturedAt 3 "PU-1", capturedAt 4 "PU-2"] []
        (by decide)) w := by
  have hcareful : Runs.AllSteps step Careful (opened [capturedAt 1 "PU-1", capturedAt 2 "PU-1", capturedAt 3 "PU-1",
      capturedAt 4 "PU-2"] [] (by decide)) threeDrains := by decide +kernel
  exact ⟨hcareful, kept_of_careful _ _ _ _ hcareful⟩

/-- The entry of a parked conflict cannot be written. The write of the second outcome of a batch fails, and the
fallback has the first row, a parked conflict, accepted. The failure of the first of two rows cannot be written. -/
theorem outbox_failures :
    (¬Kept (opened [capturedAt 1 "PU-1"] [] (by decide))
      (Runs.final step (opened [capturedAt 1 "PU-1"] [] (by decide))
        [(drainWith [⟨some 0, "conflict", none⟩]).failing
          [(.batch, .log, 1, .thrown "Error: database is locked")] [(1, .thrown "Error: 503: unavailable")]])) ∧
    (¬Kept (opened [capturedAt 1 "PU-1", capturedAt 2 "PU-1"] [] (by decide))
      (Runs.final step (opened [capturedAt 1 "PU-1", capturedAt 2 "PU-1"] [] (by decide))
        [(drainWith [⟨some 0, "conflict", none⟩, ⟨some 1, "queued", none⟩]).failing
          [(.batch, .mark, 2, .thrown "Error: database is locked")] []])) ∧
    ¬Kept (opened [capturedAt 1 "PU-2", capturedAt 2 "PU-2"] [] (by decide))
      (Runs.final step (opened [capturedAt 1 "PU-2", capturedAt 2 "PU-2"] [] (by decide))
        [(drainWith []).failing [(.item, .failure, 1, .thrown "Error: database is locked")]
          [(1, .thrown "Error: 422: invalid")]]) := by
  refine ⟨fun h => ?_, fun h => ?_, fun h => ?_⟩
  · have hlogged := h.logged _ (List.getElem_mem (by decide +kernel : 0 < _)) (by decide +kernel)
    revert hlogged
    decide +kernel
  · have hstays := h.stays 1 (by decide +kernel)
    revert hstays
    decide +kernel
  · have hattempted := h.attempted
    revert hattempted
    decide +kernel

end Drains

end Inec.MobileOutbox
