import Mathlib.Data.List.Dedup
import Inec.Lib.Runs
import Inec.Lib.Sha256
import Inec.Fabric.Chaincode

/-!
# The state of the contract

Whatever is invoked, by whom and with which arguments, the contract writes each key once. The governance
stands as it was first written, an anchor stands under the digest of its own content, and it was valid and
signed by a member of the consortium when it was written. `StoreSound` is that invariant.

Who sends an accepted anchor again gets the receipt of the first time, marked as a repetition. It has to be
the signer who sends it: the key id of the anchor has to name the invoker.
-/

namespace Inec

open Checks JsonText

/-! ### The map -/

section Value

variable {s : ContractState} {key value : String}

theorem mem_writes_of_value (h : s.value key ≠ "") : (key, s.value key) ∈ s.writes := by
  unfold ContractState.value at h ⊢
  cases hfind : s.writes.reverse.find? fun write => write.1 == key with
  | none => simp [hfind] at h
  | some write =>
      obtain ⟨hmem, hkey⟩ := Rows.find?_key hfind
      rw [Option.map_some, Option.getD_some, ← hkey]
      exact List.mem_reverse.mp hmem

theorem value_of_mem (hkeys : (s.writes.map (·.1)).Nodup) (h : (key, value) ∈ s.writes) : s.value key = value := by
  have hreverse : (s.writes.reverse.map (·.1)).Nodup := by
    rw [List.map_reverse]
    exact List.nodup_reverse.mpr hkeys
  have hfind := (Rows.find?_key_eq_some_iff hreverse).mpr ⟨List.mem_reverse.mpr h, rfl⟩
  rw [ContractState.value, hfind]
  rfl

theorem canonicalJSON_obj_ne_empty (fields : List (String × Json)) : canonicalJSON (.obj fields) ≠ "" := by
  intro h
  have hlist := congrArg String.toList h
  simp [canonicalJSON] at hlist

theorem anchorKey_ne_governance (id : String) : anchorStatePrefix ++ id ≠ governanceStateKey := by
  intro h
  have hlist := congrArg String.toList h
  rw [String.toList_append] at hlist
  exact absurd (List.cons.inj hlist).1 (by decide)

theorem anchorKey_inj {id id' : String} (h : anchorStatePrefix ++ id = anchorStatePrefix ++ id') : id = id' := by
  have hlist := congrArg String.toList h
  rw [String.toList_append, String.toList_append] at hlist
  exact String.toList_inj.mp (List.append_cancel_left hlist)

end Value

/-! ### Calls of the stub -/

theorem wrapped_eq_ok {label : String} {fails : Option String} {u : Unit} :
    wrapped label fails = .ok u ↔ fails = none := by
  cases fails <;> simp [wrapped]

theorem getState_eq_ok {ctx : TxContext} {s : ContractState} {key label value : String} :
    getState ctx s key label = .ok value ↔ ctx.getStateFails key = none ∧ s.value key = value := by
  simp only [getState, bind_eq_ok, wrapped_eq_ok, pure_eq_ok]
  constructor
  · rintro ⟨_, hfails, hvalue⟩
    exact ⟨hfails, hvalue⟩
  · rintro ⟨hfails, hvalue⟩
    exact ⟨(), hfails, hvalue⟩

theorem putState_eq_ok {ctx : TxContext} {s s' : ContractState} {key label value : String} :
    putState ctx s key value label = .ok s' ↔ ctx.putStateFails = none ∧ s' = ⟨s.writes ++ [(key, value)]⟩ := by
  simp only [putState, bind_eq_ok, wrapped_eq_ok, pure_eq_ok]
  constructor
  · rintro ⟨_, hfails, heq⟩
    exact ⟨hfails, heq.symm⟩
  · rintro ⟨hfails, heq⟩
    exact ⟨(), hfails, heq.symm⟩

/-- None of the calls of the stub fails. -/
structure TxContext.Works (ctx : TxContext) : Prop where
  getState : ∀ key, ctx.getStateFails key = none
  putState : ctx.putStateFails = none
  setEvent : ctx.setEventFails = none

/-! ### Members -/

theorem mapM_eq_ok {α β ε : Type} {f : α → Except ε β} {list : List α} {out : List β} (h : list.mapM f = .ok out) :
    ∀ y ∈ out, ∃ x ∈ list, f x = .ok y := by
  induction list generalizing out with
  | nil =>
      rw [List.mapM_nil, pure_eq_ok] at h
      subst h
      exact List.forall_mem_nil _
  | cons x rest ih =>
      simp only [List.mapM_cons, bind_eq_ok, pure_eq_ok] at h
      obtain ⟨y, hy, ys, hys, rfl⟩ := h
      refine List.forall_mem_cons.mpr ⟨⟨x, List.mem_cons_self, hy⟩, ?_⟩
      intro z hz
      obtain ⟨w, hw, hfw⟩ := ih hys z hz
      exact ⟨w, List.mem_cons_of_mem _ hw, hfw⟩

theorem mapM_self {α ε : Type} {f : α → Except ε α} {list : List α} (h : ∀ x ∈ list, f x = .ok x) :
    list.mapM f = .ok list := by
  induction list with
  | nil => rfl
  | cons x rest ih =>
      rw [List.forall_mem_cons] at h
      simp only [List.mapM_cons, bind_eq_ok, pure_eq_ok]
      exact ⟨x, h.1, rest, ih h.2, rfl⟩

theorem normalizeMSP_idem {value out : String} (h : normalizeMSP value = .ok out) : normalizeMSP out = .ok out := by
  unfold normalizeMSP at h
  split at h
  · cases h
  · rename_i hne
    obtain rfl := Except.ok.inj h
    have htrim : trimSpace (trimSpace value) = trimSpace value := Text.trim_trim _ value
    rw [normalizeMSP, htrim, if_neg hne]

/-- A normalized list stays as it is. -/
theorem normalizeMSPs_idem {values msps : List String} (h : normalizeMSPs values = .ok msps) :
    normalizeMSPs msps = .ok msps := by
  simp only [normalizeMSPs, bind_eq_ok, pure_eq_ok] at h ⊢
  obtain ⟨trimmed, htrimmed, rfl⟩ := h
  have hperm := List.perm_insertionSort (· ≤ ·) trimmed.dedup
  refine ⟨_, mapM_self ?_, ?_⟩
  · intro value hvalue
    obtain ⟨_, _, hnormal⟩ := mapM_eq_ok htrimmed value (List.mem_dedup.mp (hperm.mem_iff.mp hvalue))
    exact normalizeMSP_idem hnormal
  · have hnodup : (trimmed.dedup.insertionSort (· ≤ ·)).Nodup := hperm.nodup_iff.mpr (List.nodup_dedup trimmed)
    rw [List.dedup_eq_self.mpr hnodup]
    exact (List.pairwise_insertionSort (· ≤ ·) trimmed.dedup).insertionSort_eq

/-! ### Validity -/

/-- What `validateAnchor` wants of an anchor, in whatever order it ranges over its map. -/
structure ValidAnchor (a : EvidenceAnchor) : Prop where
  schemaVersion : a.schemaVersion = anchorSchemaVersion
  anchorType : a.anchorType = "result_event" ∨ a.anchorType = "collation_bundle"
  electionId : 0 < a.electionId
  resultId : a.anchorType = "result_event" → 0 < a.resultId
  digests : ∀ field ∈ digestFields, isSHA256Hex (digestField a field) = true
  priorEventHash : a.priorEventHash = "" ∨ isSHA256Hex a.priorEventHash = true
  signature : trimSpace a.signature ≠ ""
  signerKeyId : trimSpace a.signerKeyId ≠ ""
  encoded : (Base64.decode a.signature).isSome = true
  policyVersionId : 0 ≤ a.policyVersionId
  createdAt : Rfc3339.valid a.createdAt = true

theorem validateDigests_eq_ok {a : EvidenceAnchor} {fields : List String} {u : Unit} :
    validateDigests a fields = .ok u ↔ ∀ field ∈ fields, isSHA256Hex (digestField a field) = true := by
  induction fields with
  | nil => simp [validateDigests]
  | cons field rest ih =>
      simp only [validateDigests, bind_eq_ok, require_eq_ok, ih, List.forall_mem_cons]
      constructor
      · rintro ⟨_, hfield, hrest⟩
        exact ⟨hfield, hrest⟩
      · rintro ⟨hfield, hrest⟩
        exact ⟨(), hfield, hrest⟩

theorem validateAnchor_eq_ok {order : IterationOrder} {a : EvidenceAnchor} {u : Unit} :
    validateAnchor order a = .ok u ↔ ValidAnchor a := by
  have hdigests : (∀ field ∈ order.arrange digestFields, isSHA256Hex (digestField a field) = true) ↔
      ∀ field ∈ digestFields, isSHA256Hex (digestField a field) = true := by
    simp only [(order.perm digestFields).mem_iff]
  simp only [validateAnchor, bind_eq_ok, require_eq_ok, validateDigests_eq_ok, hdigests]
  constructor
  · rintro ⟨_, hversion, _, htype, _, helection, _, hresult, _, hdigests, _, hprior, _, htexts, _,
      hencoded, _, hpolicy, hcreated⟩
    simp only [Bool.and_eq_true, bne_iff_ne] at htexts
    refine ⟨beq_iff_eq.mp hversion, by simpa using htype, of_decide_eq_true helection, ?_, hdigests,
      by simpa using hprior, htexts.1, htexts.2, hencoded, of_decide_eq_true hpolicy, hcreated⟩
    intro hevent
    simpa [hevent] using hresult
  · intro h
    refine ⟨(), beq_iff_eq.mpr h.schemaVersion, (), by simpa using h.anchorType, (),
      decide_eq_true h.electionId, (), ?_, (), h.digests, (), by simpa using h.priorEventHash, (),
        by simp [h.signature, h.signerKeyId], (), h.encoded, (),
      decide_eq_true h.policyVersionId, h.createdAt⟩
    by_cases hevent : a.anchorType = "result_event"
    · simpa [hevent] using h.resultId hevent
    · simp [hevent]

/-! ### The invariant -/

structure GovernanceSound (g : FabricGovernance) : Prop where
  schemaVersion : g.schemaVersion = anchorSchemaVersion
  normalized : normalizeMSPs g.consortiumMsps = .ok g.consortiumMsps
  members : 2 ≤ g.consortiumMsps.length
  createdBy : g.createdByMsp ∈ g.consortiumMsps

variable (env : ContractEnv)

/-- An anchor that passed the checks under that governance. -/
structure AnchorSound (g : FabricGovernance) (a : EvidenceAnchor) : Prop where
  id : a.anchorId = deterministicAnchorID env a
  valid : ValidAnchor a
  inRange : a.InRange
  creator : a.creatorMsp ∈ g.consortiumMsps
  /-- A member of that organisation signed it. -/
  signed : ∃ identity : ClientIdentity, identity.mspId = .ok a.creatorMsp ∧
    verifyAnchorSignature env identity a = .ok ()

def governanceWrite (g : FabricGovernance) : String × String := (governanceStateKey, governanceJson g)

def anchorWrite (a : EvidenceAnchor) : String × String :=
  (anchorStatePrefix ++ deterministicAnchorID env a, storedAnchorJson a)

structure StoreSound (s : ContractState) : Prop where
  keys : (s.writes.map (·.1)).Nodup
  entries : ∀ write ∈ s.writes, (∃ g, GovernanceSound g ∧ write = governanceWrite g) ∨
    ∃ g a, governanceWrite g ∈ s.writes ∧ AnchorSound env g a ∧ write = anchorWrite env a

section Entries

variable {env} {s : ContractState}

theorem StoreSound.empty : StoreSound env .empty := ⟨List.nodup_nil, List.forall_mem_nil _⟩

theorem StoreSound.governance_of_mem (h : StoreSound env s) {value : String}
    (hmem : (governanceStateKey, value) ∈ s.writes) :
    ∃ g, GovernanceSound g ∧ governanceWrite g ∈ s.writes ∧ value = governanceJson g := by
  rcases h.entries _ hmem with ⟨g, hg, heq⟩ | ⟨g, a, -, -, heq⟩
  · exact ⟨g, hg, heq ▸ hmem, (Prod.mk.inj heq).2⟩
  · exact absurd (Prod.mk.inj heq).1.symm (anchorKey_ne_governance _)

theorem StoreSound.anchor_of_mem (h : StoreSound env s) {id value : String}
    (hmem : (anchorStatePrefix ++ id, value) ∈ s.writes) :
    ∃ g a, governanceWrite g ∈ s.writes ∧ AnchorSound env g a ∧ id = deterministicAnchorID env a ∧
      value = storedAnchorJson a := by
  rcases h.entries _ hmem with ⟨g, hg, heq⟩ | ⟨g, a, hg, ha, heq⟩
  · exact absurd (Prod.mk.inj heq).1 (anchorKey_ne_governance _)
  · exact ⟨g, a, hg, ha, anchorKey_inj (Prod.mk.inj heq).1, (Prod.mk.inj heq).2⟩

/-- A key without a value was never written. -/
theorem StoreSound.notMem_keys (h : StoreSound env s) {key : String} (hvalue : s.value key = "") :
    key ∉ s.writes.map (·.1) := by
  intro hmem
  obtain ⟨write, hwrite, rfl⟩ := List.mem_map.mp hmem
  have hval : s.value write.1 = write.2 := value_of_mem h.keys hwrite
  have hne : write.2 ≠ "" := by
    rcases h.entries write hwrite with ⟨g, -, rfl⟩ | ⟨g, a, -, -, rfl⟩
    · exact canonicalJSON_obj_ne_empty _
    · exact canonicalJSON_obj_ne_empty _
  exact hne (hval.symm.trans hvalue)

/-- A new key may be written, with what the invariant wants there. -/
theorem StoreSound.write (h : StoreSound env s) {write : String × String} (hvalue : s.value write.1 = "")
    (hwrite : (∃ g, GovernanceSound g ∧ write = governanceWrite g) ∨
      ∃ g a, governanceWrite g ∈ s.writes ∧ AnchorSound env g a ∧ write = anchorWrite env a) :
    StoreSound env ⟨s.writes ++ [write]⟩ := by
  have hmono : ∀ w, w ∈ s.writes → w ∈ s.writes ++ [write] := fun w hw => List.mem_append_left _ hw
  refine ⟨?_, ?_⟩
  · rw [List.map_append, List.map_singleton]
    exact List.nodup_append.mpr ⟨h.keys, List.nodup_singleton _, fun key hkey other hother =>
      (List.mem_singleton.mp hother) ▸ fun heq => h.notMem_keys hvalue (heq ▸ hkey)⟩
  · intro w hw
    have hold : w ∈ s.writes ∨ w = write := by simpa using hw
    rcases hold with hw | rfl
    · rcases h.entries w hw with hg | ⟨g, a, hg, ha, heq⟩
      · exact Or.inl hg
      · exact Or.inr ⟨g, a, hmono _ hg, ha, heq⟩
    · rcases hwrite with hg | ⟨g, a, hg, ha, heq⟩
      · exact Or.inl hg
      · exact Or.inr ⟨g, a, hmono _ hg, ha, heq⟩

end Entries

/-! ### What the calls do -/

section Calls

variable {env} {ctx : TxContext} {s s' : ContractState}

theorem initializeGovernance_ok {text : String} {g : FabricGovernance}
    (h : initializeGovernance ctx s text = .ok (s', g)) :
    s.value governanceStateKey = "" ∧ GovernanceSound g ∧ s'.writes = s.writes ++ [governanceWrite g] := by
  simp only [initializeGovernance, bind_eq_ok, getState_eq_ok, require_eq_ok, fetch_eq_ok,
    putState_eq_ok, pure_eq_ok, Prod.mk.injEq] at h
  obtain ⟨existing, ⟨-, rfl⟩, _, hexisting, decoded, -, msps, hmsps, _, hlen, caller, -, _, hcaller,
    written, ⟨-, rfl⟩, rfl, rfl⟩ := h
  refine ⟨beq_iff_eq.mp hexisting, ⟨rfl, normalizeMSPs_idem hmsps, of_decide_eq_true hlen, ?_⟩, rfl⟩
  exact List.contains_iff_mem.mp hcaller

theorem readGovernance_ok (hs : StoreSound env s) {g : FabricGovernance} (h : readGovernance ctx s = .ok g) :
    GovernanceSound g ∧ governanceWrite g ∈ s.writes := by
  simp only [readGovernance, bind_eq_ok, getState_eq_ok, require_eq_ok, fetch_eq_ok, relabel_eq_ok, pure_eq_ok] at h
  obtain ⟨text, ⟨-, rfl⟩, _, htext, decoded, hdecoded, msps, hmsps, _, -, rfl⟩ := h
  obtain ⟨g, hg, hmem, hvalue⟩ := hs.governance_of_mem (mem_writes_of_value (by simpa using htext))
  have hrange : IsInt64 g.schemaVersion := hg.schemaVersion ▸ (by decide)
  rw [hvalue, decodeGovernance_governanceJson hrange] at hdecoded
  obtain rfl := Option.some.inj hdecoded
  rw [hg.normalized] at hmsps
  obtain rfl := Except.ok.inj hmsps
  exact ⟨hg, hmem⟩

theorem readGovernance_of_mem (hs : StoreSound env s) {g : FabricGovernance} (hg : GovernanceSound g)
    (hmem : governanceWrite g ∈ s.writes) (hstub : ∀ key, ctx.getStateFails key = none) :
    readGovernance ctx s = .ok g := by
  have hrange : IsInt64 g.schemaVersion := hg.schemaVersion ▸ (by decide)
  have hne : (governanceJson g != "") = true := bne_iff_ne.mpr (canonicalJSON_obj_ne_empty _)
  simp only [readGovernance, bind_eq_ok, getState_eq_ok, require_eq_ok, fetch_eq_ok, relabel_eq_ok, pure_eq_ok]
  exact ⟨governanceJson g, ⟨hstub _, value_of_mem hs.keys hmem⟩, (), hne, g, decodeGovernance_governanceJson hrange,
    g.consortiumMsps, hg.normalized, (), decide_eq_true hg.members, rfl⟩

/-- The checks of `CreateAnchor` on caller and anchor. -/
structure Accepted (env : ContractEnv) (identity : ClientIdentity) (g : FabricGovernance) (json caller : String)
    (a : EvidenceAnchor) : Prop where
  mspId : identity.mspId = .ok caller
  member : caller ∈ g.consortiumMsps
  decoded : decodeAnchor json = some a
  valid : ValidAnchor a
  id : a.anchorId = deterministicAnchorID env a
  signed : verifyAnchorSignature env identity a = .ok ()

theorem acceptedAnchor_eq_ok {json caller : String} {a : EvidenceAnchor} :
    acceptedAnchor env ctx s json = .ok (caller, a) ↔
      ∃ g, readGovernance ctx s = .ok g ∧ Accepted env ctx.identity g json caller a := by
  simp only [acceptedAnchor, callerMSP, bind_eq_ok, relabel_eq_ok, require_eq_ok, fetch_eq_ok,
    validateAnchor_eq_ok, pure_eq_ok, Prod.mk.injEq]
  constructor
  · rintro ⟨g, hg, _, hcaller, _, hmember, _, hdecoded, _, hvalid, _, hid, _, hsigned, rfl, rfl⟩
    exact ⟨g, hg, hcaller, List.contains_iff_mem.mp hmember, hdecoded, hvalid, beq_iff_eq.mp hid, hsigned⟩
  · rintro ⟨g, hg, h⟩
    exact ⟨g, hg, caller, h.mspId, (), List.contains_iff_mem.mpr h.member, a, h.decoded, (), h.valid, (),
      beq_iff_eq.mpr h.id, (), h.signed, rfl, rfl⟩

/-- The anchor as it is written is as good as the one that was sent. -/
theorem Accepted.sound {identity : ClientIdentity} {g : FabricGovernance} {json caller : String}
    {a : EvidenceAnchor} (h : Accepted env identity g json caller a) (txId : String) :
    AnchorSound env g { a with creatorMsp := caller, fabricTxId := txId } :=
  ⟨h.id, { h.valid with }, { decodeAnchor_inRange h.decoded with }, h.member, identity, h.mspId, h.signed⟩

/-- An anchor that is not in the state is written. -/
theorem createAnchor_new {json caller : String} {anchor : EvidenceAnchor}
    (haccepted : acceptedAnchor env ctx s json = .ok (caller, anchor))
    (hnew : s.value (anchorStatePrefix ++ anchor.anchorId) = "") (hworks : ctx.Works) :
    ∃ s' r, createAnchor env ctx s json = .ok (s', r) ∧ r.idempotent = false := by
  let stored : EvidenceAnchor := { anchor with creatorMsp := caller, fabricTxId := ctx.txId }
  refine ⟨⟨s.writes ++ [(anchorStatePrefix ++ anchor.anchorId, storedAnchorJson stored)]⟩,
    storedReceipt env anchor.anchorId stored false, ?_, rfl⟩
  simp only [createAnchor, bind_eq_ok, getState_eq_ok]
  refine ⟨_, haccepted, _, ⟨hworks.getState _, hnew⟩, ?_⟩
  simp only [ne_eq, not_true_eq_false, if_false, bind_eq_ok, putState_eq_ok, wrapped_eq_ok, pure_eq_ok]
  exact ⟨_, ⟨hworks.putState, rfl⟩, (), hworks.setEvent, rfl⟩

/-- An accepted call ends with the anchor in the state, and the receipt is the stored anchor's. -/
theorem createAnchor_ok (hs : StoreSound env s) {json : String} {r : AnchorReceipt}
    (h : createAnchor env ctx s json = .ok (s', r)) :
    ∃ a : EvidenceAnchor, a.InRange ∧ r = storedReceipt env (deterministicAnchorID env a) a r.idempotent ∧
      anchorWrite env a ∈ s'.writes ∧
      (s' = s ∧ r.idempotent = true ∨ ∃ g, governanceWrite g ∈ s.writes ∧ AnchorSound env g a ∧
        s.value (anchorWrite env a).1 = "" ∧ s' = ⟨s.writes ++ [anchorWrite env a]⟩ ∧ r.idempotent = false) := by
  simp only [createAnchor, bind_eq_ok, getState_eq_ok] at h
  obtain ⟨⟨caller, anchor⟩, haccepted, value, ⟨-, rfl⟩, h⟩ := h
  obtain ⟨g, hg, haccepted⟩ := acceptedAnchor_eq_ok.mp haccepted
  simp only at h
  split at h
  · rename_i hvalue
    simp only [bind_eq_ok, fetch_eq_ok, require_eq_ok, pure_eq_ok, Prod.mk.injEq] at h
    obtain ⟨stored, hstored, _, -, rfl, rfl⟩ := h
    have hmem := mem_writes_of_value hvalue
    obtain ⟨g', a, -, ha, hid, hjson⟩ := hs.anchor_of_mem hmem
    rw [hjson, decodeAnchor_storedAnchorJson ha.inRange] at hstored
    obtain rfl := Option.some.inj hstored
    refine ⟨a, ha.inRange, by rw [hid]; rfl, ?_, Or.inl ⟨rfl, rfl⟩⟩
    rw [anchorWrite, ← hid, ← hjson]
    exact hmem
  · rename_i hvalue
    simp only [bind_eq_ok, putState_eq_ok, pure_eq_ok, Prod.mk.injEq] at h
    obtain ⟨written, ⟨-, rfl⟩, _, -, rfl, rfl⟩ := h
    have hid : anchor.anchorId = deterministicAnchorID env
        { anchor with creatorMsp := caller, fabricTxId := ctx.txId } :=
      haccepted.id
    have hsound := haccepted.sound ctx.txId
    refine ⟨{ anchor with creatorMsp := caller, fabricTxId := ctx.txId }, hsound.inRange, by rw [← hid]; rfl, ?_,
      Or.inr ⟨g, (readGovernance_ok hs hg).2, hsound, ?_, ?_, rfl⟩⟩
    · rw [anchorWrite, ← hid]
      exact List.mem_append_right _ (List.mem_singleton_self _)
    · rw [anchorWrite, ← hid]
      simpa using hvalue
    · rw [anchorWrite, ← hid]

/-- Every call keeps the invariant, and what was written stays at its place. -/
theorem contractStep_sound (s : ContractState) (i : TxContext × ContractCall) (hs : StoreSound env s) :
    StoreSound env (contractStep env s i) ∧ s.writes <+: (contractStep env s i).writes := by
  obtain ⟨ctx, call⟩ := i
  cases call with
  | initializeGovernance text =>
      cases hcall : initializeGovernance ctx s text with
      | error err =>
          simp only [contractStep, hcall]
          exact ⟨hs, List.prefix_refl _⟩
      | ok done =>
          simp only [contractStep, hcall]
          obtain ⟨hvalue, hg, hwrites⟩ := @initializeGovernance_ok ctx s done.1 text done.2 hcall
          have hdone : done.1 = ⟨s.writes ++ [governanceWrite done.2]⟩ := by
            cases hstate : done.1
            rw [hstate] at hwrites
            rw [← hwrites]
          rw [hdone]
          exact ⟨hs.write hvalue (Or.inl ⟨done.2, hg, rfl⟩), List.prefix_append _ _⟩
  | createAnchor text =>
      cases hcall : createAnchor env ctx s text with
      | error err =>
          simp only [contractStep, hcall]
          exact ⟨hs, List.prefix_refl _⟩
      | ok done =>
          simp only [contractStep, hcall]
          obtain ⟨a, -, -, -, ⟨hsame, -⟩ | ⟨g, hg, ha, hvalue, hwritten, -⟩⟩ :=
            @createAnchor_ok env ctx s done.1 hs text done.2 hcall
          · rw [hsame]
            exact ⟨hs, List.prefix_refl _⟩
          · rw [hwritten]
            exact ⟨hs.write hvalue (Or.inr ⟨g, a, hg, ha, rfl⟩), List.prefix_append _ _⟩
  | readGovernance => exact ⟨hs, List.prefix_refl _⟩
  | readAnchor id => exact ⟨hs, List.prefix_refl _⟩
  | anchorExists id => exact ⟨hs, List.prefix_refl _⟩
  | getAnchorHistory id => exact ⟨hs, List.prefix_refl _⟩

/-- What an accepted call leaves is sound. -/
theorem createAnchor_sound (hs : StoreSound env s) {json : String} {r : AnchorReceipt}
    (h : createAnchor env ctx s json = .ok (s', r)) : StoreSound env s' ∧ s.writes <+: s'.writes := by
  have hstep := contractStep_sound s (ctx, .createAnchor json) hs
  simp only [contractStep, h] at hstep
  exact hstep

/-! ### Sending an anchor again -/

/-- What has a value keeps it. -/
theorem StoreSound.value_eq_of_prefix (h : StoreSound env s') (hgrown : s.writes <+: s'.writes) {key : String}
    (hne : s.value key ≠ "") : s'.value key = s.value key :=
  value_of_mem h.keys (hgrown.subset (mem_writes_of_value hne))

theorem readGovernance_later {ctx' : TxContext} {g : FabricGovernance} (h : readGovernance ctx s = .ok g)
    (hs' : StoreSound env s') (hgrown : s.writes <+: s'.writes) (hstub : ∀ key, ctx'.getStateFails key = none) :
    readGovernance ctx' s' = .ok g := by
  simp only [readGovernance, bind_eq_ok, getState_eq_ok, require_eq_ok, fetch_eq_ok, relabel_eq_ok,
    pure_eq_ok] at h ⊢
  obtain ⟨text, ⟨-, rfl⟩, _, htext, rest⟩ := h
  have hvalue := hs'.value_eq_of_prefix hgrown (show s.value governanceStateKey ≠ "" by simpa using htext)
  exact ⟨_, ⟨hstub _, hvalue⟩, (), htext, rest⟩

theorem createAnchor_accepted {json : String} {r : AnchorReceipt} (h : createAnchor env ctx s json = .ok (s', r)) :
    ∃ caller a, acceptedAnchor env ctx s json = .ok (caller, a) ∧ r.anchorId = a.anchorId := by
  simp only [createAnchor, bind_eq_ok] at h
  obtain ⟨⟨caller, a⟩, haccepted, value, -, h⟩ := h
  refine ⟨caller, a, haccepted, ?_⟩
  simp only at h
  split at h
  · simp only [bind_eq_ok, pure_eq_ok, Prod.mk.injEq] at h
    obtain ⟨stored, -, _, -, -, rfl⟩ := h
    rfl
  · simp only [bind_eq_ok, pure_eq_ok, Prod.mk.injEq] at h
    obtain ⟨written, -, _, -, -, rfl⟩ := h
    rfl

theorem createAnchor_stored (hs : StoreSound env s) {json caller : String} {anchor a : EvidenceAnchor}
    (haccepted : acceptedAnchor env ctx s json = .ok (caller, anchor)) (ha : a.InRange)
    (hmem : anchorWrite env a ∈ s.writes) (hid : anchor.anchorId = deterministicAnchorID env a)
    (hstub : ∀ key, ctx.getStateFails key = none) :
    createAnchor env ctx s json = .ok (s, storedReceipt env (deterministicAnchorID env a) a true) := by
  have hvalue : s.value (anchorStatePrefix ++ anchor.anchorId) = storedAnchorJson a := by
    rw [hid]
    exact value_of_mem hs.keys hmem
  have hne : storedAnchorJson a ≠ "" := canonicalJSON_obj_ne_empty _
  simp only [createAnchor, bind_eq_ok, getState_eq_ok]
  refine ⟨_, haccepted, _, ⟨hstub _, hvalue⟩, ?_⟩
  simp only [if_pos hne, bind_eq_ok, fetch_eq_ok, require_eq_ok, pure_eq_ok, Prod.mk.injEq, true_and]
  refine ⟨a, decodeAnchor_storedAnchorJson ha, (), ?_, ?_⟩
  · rw [hid]
    exact beq_self_eq_true _
  · rw [hid]

/-- The signer is accepted again later, and told so with the receipt of the first time. -/
theorem createAnchor_again (hs : StoreSound env s) {json : String} {r : AnchorReceipt}
    (h : createAnchor env ctx s json = .ok (s', r)) {ctx' : TxContext} {t : ContractState} (ht : StoreSound env t)
    (hsame : s.writes <+: s'.writes) (hgrown : s'.writes <+: t.writes) (hidentity : ctx'.identity = ctx.identity)
    (hstub : ∀ key, ctx'.getStateFails key = none) :
    createAnchor env ctx' t json = .ok (t, { r with idempotent := true }) := by
  obtain ⟨a, ha, hr, hmem, -⟩ := createAnchor_ok hs h
  obtain ⟨caller, anchor, haccepted, hid⟩ := createAnchor_accepted h
  obtain ⟨g, hg, haccepted⟩ := acceptedAnchor_eq_ok.mp haccepted
  have hlater : acceptedAnchor env ctx' t json = .ok (caller, anchor) :=
    acceptedAnchor_eq_ok.mpr ⟨g, readGovernance_later hg ht (hsame.trans hgrown) hstub, hidentity ▸ haccepted⟩
  have hanchor : anchor.anchorId = deterministicAnchorID env a := by
    rw [← hid, hr]
    rfl
  rw [createAnchor_stored ht hlater ha (hgrown.subset hmem) hanchor hstub, hr]
  rfl

/-- Whoever is accepted later with an anchor of that id is told the same. -/
theorem createAnchor_sameId (hs : StoreSound env s) {json : String} {r : AnchorReceipt}
    (h : createAnchor env ctx s json = .ok (s', r)) {ctx' : TxContext} {t t' : ContractState}
    (ht : StoreSound env t) (hgrown : s'.writes <+: t.writes) {json' : String} {r' : AnchorReceipt}
    (h' : createAnchor env ctx' t json' = .ok (t', r')) (hid : r'.anchorId = r.anchorId) :
    t' = t ∧ r' = { r with idempotent := true } := by
  obtain ⟨a, ha, hr, hmem, -⟩ := createAnchor_ok hs h
  obtain ⟨a', ha', hr', hmem', hcase⟩ := createAnchor_ok ht h'
  have hids : deterministicAnchorID env a' = deterministicAnchorID env a := by
    rw [hr, hr'] at hid
    exact hid
  have hvalue : t.value (anchorStatePrefix ++ deterministicAnchorID env a) = storedAnchorJson a :=
    value_of_mem ht.keys (hgrown.subset hmem)
  rcases hcase with ⟨rfl, hidempotent⟩ | ⟨_, -, -, hnone, -⟩
  · have hvalue' : t'.value (anchorStatePrefix ++ deterministicAnchorID env a') = storedAnchorJson a' :=
      value_of_mem ht.keys hmem'
    rw [hids, hvalue] at hvalue'
    have hsame : a = a' := by
      have hdecoded := decodeAnchor_storedAnchorJson ha
      rw [hvalue', decodeAnchor_storedAnchorJson ha'] at hdecoded
      exact (Option.some.inj hdecoded).symm
    refine ⟨rfl, ?_⟩
    rw [hr', hr, hidempotent, hsame]
    rfl
  · exfalso
    rw [anchorWrite, hids, hvalue] at hnone
    exact canonicalJSON_obj_ne_empty _ hnone

end Calls

/-! ### Runs -/

theorem storeSound_of_run (inputs : List (TxContext × ContractCall)) :
    ∀ s ∈ Runs.visited (contractStep env) .empty inputs, StoreSound env s :=
  Runs.forall_visited_of_step (fun s i hs => (contractStep_sound s i hs).1) StoreSound.empty inputs

section Repetition

/-- A digest is one to the contract. -/
theorem isSHA256Hex_hex (text : String) : isSHA256Hex (Sha256.hex text) = true := by
  have hdigit : ∀ n < 16, (hexValue? (Sha256.hexDigit n)).isSome = true := by decide
  rw [isSHA256Hex, Sha256.length_hex, Bool.and_eq_true]
  refine ⟨rfl, List.all_eq_true.mpr ?_⟩
  intro c hc
  obtain ⟨n, hn, rfl⟩ := Sha256.hex_digits text c hc
  exact hdigit n hn

/-- The identity of an organisation's gateway. -/
def memberIdentity (mspId : String) : ClientIdentity where
  mspId := .ok mspId
  certificate := .ok ⟨.ecdsa (mspId ++ " key"), "gateway." ++ mspId, mspId ++ " DER"⟩
  id := .ok ("x509::CN=gateway." ++ mspId)

/-- An invocation by that gateway, on a platform that works. -/
def memberContext (mspId txId : String) : TxContext where
  identity := memberIdentity mspId
  txId := txId
  time := .ofFields 2027 2 20 15 30 0 0 (by decide)
  getStateFails := fun _ => none
  putStateFails := none
  setEventFails := none
  order := ⟨id, fun _ => List.Perm.refl _⟩

/-- A platform on which the signature `0x30 0x06` verifies under the key of the first organisation. -/
def shaEnv : ContractEnv where
  sha256Hex := Sha256.hex
  verifyASN1 := fun key _ signature => key == "Org1MSP key" && signature == [0x30, 0x06]
  verifyPKCS1v15 := fun _ _ _ => some "crypto/rsa: verification error"
  channelId := "evidence"

def signedAnchor : EvidenceAnchor :=
  let a : EvidenceAnchor :=
    ⟨1, "", "result_event", 1, 7, Sha256.hex "event", Sha256.hex "payload", "", "MAY=", "gateway.Org1MSP", 0,
      "2027-02-20T15:00:00Z", "", ""⟩
  { a with anchorId := deterministicAnchorID shaEnv a }

def governed : List (TxContext × ContractCall) :=
  [(memberContext "Org1MSP" "tx1", .initializeGovernance "[\"Org1MSP\",\"Org2MSP\"]")]

/-- The id is no part of its own preimage. -/
theorem deterministicAnchorID_withId (env : ContractEnv) (a : EvidenceAnchor) (id : String) :
    deterministicAnchorID env { a with anchorId := id } = deterministicAnchorID env a := rfl

def consortium : FabricGovernance := ⟨1, ["Org1MSP", "Org2MSP"], "Org1MSP", "2027-02-20T15:30:00Z"⟩

theorem final_governed : Runs.final (contractStep shaEnv) .empty governed = ⟨[governanceWrite consortium]⟩ := by
  decide +kernel

theorem signedAnchor_valid : ValidAnchor signedAnchor where
  schemaVersion := rfl
  anchorType := Or.inl rfl
  electionId := by decide
  resultId := fun _ => by decide
  digests := by
    intro field hfield
    simp only [digestFields, List.mem_cons, List.not_mem_nil, or_false] at hfield
    rcases hfield with rfl | rfl | rfl
    · exact isSHA256Hex_hex _
    · exact isSHA256Hex_hex _
    · exact isSHA256Hex_hex _
  priorEventHash := Or.inl rfl
  signature := by decide
  signerKeyId := by decide
  encoded := by decide
  policyVersionId := by decide
  createdAt := by decide

theorem signedAnchor_accepted :
    Accepted shaEnv (memberIdentity "Org1MSP") consortium
      (anchorPayloadJson signedAnchor) "Org1MSP" signedAnchor where
  mspId := rfl
  member := by decide
  decoded := decodeAnchor_anchorPayloadJson ⟨by decide, by decide, by decide, by decide⟩
  valid := signedAnchor_valid
  id := (deterministicAnchorID_withId shaEnv _ _).symm
  signed := by
    simp only [verifyAnchorSignature, bind_eq_ok, relabel_eq_ok, require_eq_ok]
    refine ⟨_, rfl, _, rfl, (), ?_, ?_⟩
    · have hname : trimSpace signedAnchor.signerKeyId = "gateway.Org1MSP" := by decide
      rw [signerKeyIDMatches, hname]
      rfl
    · have hdecode : Base64.decode signedAnchor.signature = some [0x30, 0x06] := by decide
      simp only [verifySignatureOverAnchor, bind_eq_ok, fetch_eq_ok, require_eq_ok]
      exact ⟨_, hdecode, (), rfl, rfl⟩



theorem consortium_sound : GovernanceSound consortium := ⟨rfl, by decide, by decide, by decide⟩

theorem governed_sound : StoreSound shaEnv (Runs.final (contractStep shaEnv) .empty governed) :=
  storeSound_of_run shaEnv governed _ (Runs.final_mem_visited _ _)

theorem memberContext_works (mspId txId : String) : (memberContext mspId txId).Works := ⟨fun _ => rfl, rfl, rfl⟩

theorem readGovernance_governed (mspId txId : String) :
    readGovernance (memberContext mspId txId) (Runs.final (contractStep shaEnv) .empty governed) =
      .ok consortium := by
  refine readGovernance_of_mem governed_sound consortium_sound ?_ (memberContext_works _ _).getState
  rw [final_governed]
  exact List.mem_singleton_self _

/-- The key id of the anchor names the gateway of the first organisation, not that of the second. -/
theorem signedAnchor_refused : verifyAnchorSignature shaEnv (memberIdentity "Org2MSP") signedAnchor ≠ .ok () := by
  intro h
  simp only [verifyAnchorSignature, bind_eq_ok, relabel_eq_ok, require_eq_ok] at h
  obtain ⟨cert, hcert, id, hid, _, hmatches, -⟩ := h
  obtain rfl := Except.ok.inj hcert
  obtain rfl := Except.ok.inj hid
  have hname : trimSpace signedAnchor.signerKeyId = "gateway.Org1MSP" := by decide
  have hdigest : "gateway.Org1MSP" ≠ Sha256.hex ("Org2MSP" ++ " DER") := by
    intro heq
    have hlength := congrArg (fun text => text.toList.length) heq
    simp only [Sha256.length_hex] at hlength
    exact absurd hlength (by decide)
  rw [signerKeyIDMatches, hname] at hmatches
  simp only [shaEnv, List.any_cons, List.any_nil, Bool.or_false, Bool.and_eq_true, Bool.or_eq_true,
    beq_iff_eq] at hmatches
  obtain ⟨-, ⟨-, hcommon⟩ | ⟨-, hinvoker⟩ | ⟨-, hcert⟩⟩ := hmatches
  · exact absurd hcommon (by decide)
  · exact absurd hinvoker (by decide)
  · exact hdigest hcert

end Repetition

end Inec
