import Mathlib.Data.Fintype.Card
import Mathlib.Data.List.FinRange
import Mathlib.Data.Prod.Lex
import Mathlib.Logic.Relation

/-!
# Clusters of points

dbscan_cluster of spatial.rs. The points are labelled in the order of the request: an unlabelled core point
starts a cluster, and a queue hands its label on. The queue grows while it is read, and a point may stand in it
more than once.

Whether two points are neighbours (their haversine distance is at most `eps_km`) and whether a coordinate is
valid are parameters. A request of the size that the server reads has fewer than 2^31 points, so that no label
overflows. What the properties and the geometry of a point say is left out.
-/

namespace Inec.Spatial

/-- The label of each point; -1 is noise. -/
abbrev Labels (n : Nat) := Fin n → Int

section Loops

variable {n : Nat} (near : Fin n → Fin n → Bool) (minPoints : Nat)

def neighbors (i : Fin n) : List (Fin n) := (List.finRange n).filter fun j => near i j

/-- One round of the queue: the labels, and what is pushed. -/
def visit (clusterId : Nat) (labels : Labels n) (j : Fin n) : Labels n × List (Fin n) :=
  let labels := if labels j = -1 then Function.update labels j clusterId else labels
  if labels j ≠ -1 ∧ labels j ≠ clusterId then (labels, [])
  else
    let labels := Function.update labels j clusterId
    let jNeighbors := neighbors near j
    (labels, if minPoints ≤ jNeighbors.length then jNeighbors.filter fun k => labels k = -1 else [])

def Core (i : Fin n) : Prop := minPoints ≤ (neighbors near i).length

instance : DecidablePred (Core near minPoints) := fun _ => Nat.decLe _ _

/-- What a round does: a point of another cluster is passed over, and any other one has the label from then on. -/
theorem visit_cases (clusterId : Nat) (labels : Labels n) (j : Fin n) :
    (labels j ≠ -1 ∧ labels j ≠ clusterId ∧ visit near minPoints clusterId labels j = (labels, [])) ∨
      ((labels j = -1 ∨ labels j = clusterId) ∧ visit near minPoints clusterId labels j =
        (Function.update labels j clusterId, if Core near minPoints j then
          (neighbors near j).filter fun k => Function.update labels j (clusterId : Int) k = -1 else [])) := by
  have hid : (clusterId : Int) ≠ -1 := by omega
  by_cases hnoise : labels j = -1
  · right
    refine ⟨.inl hnoise, ?_⟩
    have hown : ¬((clusterId : Int) ≠ -1 ∧ (clusterId : Int) ≠ clusterId) := fun h => h.2 rfl
    simp only [visit, if_pos hnoise, Function.update_self, Function.update_idem]
    rw [if_neg hown]
    rfl
  · by_cases hsame : labels j = clusterId
    · right
      refine ⟨.inr hsame, ?_⟩
      have hown : ¬(labels j ≠ -1 ∧ labels j ≠ clusterId) := fun h => h.2 hsame
      simp only [visit, if_neg hnoise]
      rw [if_neg hown]
      rfl
    · left
      refine ⟨hnoise, hsame, ?_⟩
      simp only [visit, if_neg hnoise]
      rw [if_pos ⟨hnoise, hsame⟩]

/-- The points that have no label. -/
def unlabelled (labels : Labels n) : Nat := (Finset.univ.filter fun v => labels v = -1).card

/-- A round labels a point, or it takes one that has a label off the queue and pushes only points that have none. -/
theorem visit_decreases (clusterId : Nat) (labels : Labels n) (j : Fin n) (queue : List (Fin n)) :
    Prod.Lex (· < ·) (· < ·)
      (unlabelled (visit near minPoints clusterId labels j).1,
        (queue ++ (visit near minPoints clusterId labels j).2).countP
          fun k => (visit near minPoints clusterId labels j).1 k ≠ -1)
      (unlabelled labels, (j :: queue).countP fun k => labels k ≠ -1) := by
  have hid : (clusterId : Int) ≠ -1 := by omega
  obtain ⟨hlabel, -, hvisit⟩ | ⟨hlabel, hvisit⟩ := visit_cases near minPoints clusterId labels j
  · rw [hvisit, List.append_nil]
    apply Prod.Lex.right
    show queue.countP (fun k => labels k ≠ -1) < (j :: queue).countP (fun k => labels k ≠ -1)
    rw [List.countP_cons_of_pos (by simp [hlabel])]
    exact Nat.lt_succ_self _
  · rw [hvisit]
    cases hlabel with
    | inl hnoise =>
        apply Prod.Lex.left
        apply Finset.card_lt_card
        rw [Finset.ssubset_iff_of_subset]
        · refine ⟨j, by simp [hnoise], by simp [hid]⟩
        · intro v hv
          simp only [Finset.mem_filter, Finset.mem_univ, true_and] at hv ⊢
          by_cases hvj : v = j
          · rw [hvj]
            exact hnoise
          · rwa [Function.update_of_ne hvj] at hv
    | inr hsame =>
        have hupdate : Function.update labels j (clusterId : Int) = labels := by
          rw [← hsame, Function.update_eq_self]
        rw [hupdate]
        apply Prod.Lex.right
        have hpushed : (if Core near minPoints j then (neighbors near j).filter fun k => labels k =
          -1 else []).countP
            (fun k => labels k ≠ -1) = 0 := by
          rw [List.countP_eq_zero]
          split
          · intro k hk
            simp at hk ⊢
            exact hk.2
          · exact List.forall_mem_nil _
        rw [List.countP_append, hpushed, List.countP_cons_of_pos (by simp [hsame, hid])]
        exact Nat.lt_succ_self _

/-- The rounds of the queue, which ends although it grows, and may hold a point more than once. -/
def expand (clusterId : Nat) (labels : Labels n) : List (Fin n) → Labels n
  | [] => labels
  | j :: queue =>
      expand clusterId (visit near minPoints clusterId labels j).1
        (queue ++ (visit near minPoints clusterId labels j).2)
termination_by queue => (unlabelled labels, queue.countP fun k => labels k ≠ -1)
decreasing_by exact visit_decreases near minPoints clusterId labels j queue

/-- One round of the outer loop. -/
def scan (state : Labels n × Nat) (i : Fin n) : Labels n × Nat :=
  if state.1 i ≠ -1 then state
  else if (neighbors near i).length < minPoints then state
  else
    (expand near minPoints state.2 (Function.update state.1 i (state.2 : Int)) (neighbors near i), state.2 + 1)

def clusters : Labels n × Nat := (List.finRange n).foldl (scan near minPoints) (fun _ => -1, 0)

end Loops

/-! ### The handler -/

structure InvalidCoordinate (Point : Type) where
  error : String
  message : String
  offendingPoint : Point
  deriving DecidableEq, Repr

structure Feature (Point : Type) where
  point : Point
  clusterId : Int
  isNoise : Bool
  deriving DecidableEq, Repr

structure FeatureCollection (Point : Type) where
  features : List (Feature Point)
  clusterCount : Nat
  noiseCount : Nat
  featureCount : Nat
  deriving DecidableEq, Repr

section Handler

variable {Point : Type} (isValidCoord : Point → Bool) (near : Point → Point → Bool) (points : List Point)
  (minPoints : Nat)

def validatePoints : Option (InvalidCoordinate Point) :=
  (points.find? fun p => !isValidCoord p).map fun p =>
    ⟨"invalid_coordinate", "latitude must be in [-90, 90] and longitude in [-180, 180] (finite values only)", p⟩

/-- The answer for the labels that were given and the number of clusters. -/
def collection (labels : Labels points.length) (clusterCount : Nat) : FeatureCollection Point where
  features := (List.finRange points.length).map fun i => ⟨points.get i, labels i, labels i = -1⟩
  clusterCount := clusterCount
  noiseCount := (List.finRange points.length).countP fun i => labels i = -1
  featureCount := points.length

def dbscanCluster : Except (InvalidCoordinate Point) (FeatureCollection Point) :=
  match validatePoints isValidCoord points with
  | some invalid => .error invalid
  | none =>
      let found := clusters (fun i j => near (points.get i) (points.get j)) minPoints
      .ok (collection points found.1 found.2)

end Handler

section Clustering

variable {n : Nat} (near : Fin n → Fin n → Bool) (minPoints : Nat)

/-- Neighbouring core points. -/
def Linked (i j : Fin n) : Prop := Core near minPoints i ∧ Core near minPoints j ∧ near i j = true

/-- What the labels of DBSCAN are to say. -/
structure Clustering (labels : Labels n) (clusterCount : Nat) : Prop where
  noise_iff : ∀ i, labels i = -1 ↔ ¬Core near minPoints i ∧ ∀ j, Core near minPoints j → near j i = false
  core_iff : ∀ i j, Core near minPoints i → Core near minPoints j →
    (labels i = labels j ↔ Relation.ReflTransGen (Linked near minPoints) i j)
  border : ∀ i, labels i ≠ -1 → ¬Core near minPoints i →
    ∃ j, Core near minPoints j ∧ near j i = true ∧ labels i = labels j
  used_iff : ∀ label : Int, (∃ i, labels i = label ∧ label ≠ -1) ↔ 0 ≤ label ∧ label < clusterCount

/-- The clusters that were found so far: each is closed under the neighbours of its core points. -/
structure Closed (labels : Labels n) (clusterCount : Nat) : Prop where
  bounded : ∀ v, labels v = -1 ∨ (0 ≤ labels v ∧ labels v < clusterCount)
  closed : ∀ v w, Core near minPoints v → labels v ≠ -1 → near v w = true → labels w ≠ -1
  linked : ∀ v w, Linked near minPoints v w → labels v ≠ -1 → labels w = labels v
  connected : ∀ v w, Core near minPoints v → Core near minPoints w → labels v ≠ -1 → labels v = labels w →
    Relation.ReflTransGen (Linked near minPoints) v w
  reached : ∀ v, labels v ≠ -1 →
    Core near minPoints v ∨ ∃ u, Core near minPoints u ∧ near u v = true ∧ labels v = labels u
  used : ∀ c : Nat, c < clusterCount → ∃ v, labels v = c

/-- A cluster that is being filled from a core point over the labels of the earlier ones. -/
structure Filling (before : Labels n) (clusterId : Nat) (seed : Fin n) (labels : Labels n) (queue : List (Fin n)) :
    Prop where
  seed_label : labels seed = clusterId
  kept : ∀ v, before v ≠ -1 → labels v = before v
  added : ∀ v, before v = -1 → labels v = -1 ∨ labels v = clusterId
  awaited : ∀ v w, Core near minPoints v → labels v = clusterId → near v w = true → labels w ≠ -1 ∨ w ∈ queue
  queued : ∀ v ∈ queue, ∃ u, Core near minPoints u ∧ labels u = clusterId ∧ near u v = true
  connected : ∀ v, Core near minPoints v → labels v = clusterId →
    Relation.ReflTransGen (Linked near minPoints) seed v
  reached : ∀ v, labels v = clusterId →
    Core near minPoints v ∨ ∃ u, Core near minPoints u ∧ near u v = true ∧ labels u = clusterId

end Clustering

section Proofs

variable {n : Nat} {near : Fin n → Fin n → Bool} {minPoints : Nat} {before labels : Labels n} {clusterId : Nat}
  {seed : Fin n} {queue : List (Fin n)}

theorem mem_neighbors {i j : Fin n} : j ∈ neighbors near i ↔ near i j = true := by
  simp [neighbors]

theorem update_label {j v : Fin n} (h : labels v = clusterId) :
    Function.update labels j (clusterId : Int) v = clusterId := by
  by_cases hvj : v = j
  · rw [hvj, Function.update_self]
  · rwa [Function.update_of_ne hvj]

theorem label_of_update {j v : Fin n} (h : Function.update labels j (clusterId : Int) v = clusterId) :
    v = j ∨ labels v = clusterId := by
  by_cases hvj : v = j
  · exact .inl hvj
  · rw [Function.update_of_ne hvj] at h
    exact .inr h

theorem update_labelled {j v : Fin n} (h : labels v ≠ -1) : Function.update labels j (clusterId : Int) v ≠ -1 := by
  by_cases hvj : v = j
  · rw [hvj, Function.update_self]
    omega
  · rwa [Function.update_of_ne hvj]

/-- A round with a point that had no label before the cluster. -/
theorem Filling.update {j : Fin n} (h : Filling near minPoints before clusterId seed labels (j :: queue))
    (hnew : before j = -1) :
    Filling near minPoints before clusterId seed (Function.update labels j (clusterId : Int))
      (queue ++ if Core near minPoints j then
        (neighbors near j).filter fun k => Function.update labels j (clusterId : Int) k = -1 else []) := by
  obtain ⟨u, hu, hulabel, huj⟩ := h.queued j List.mem_cons_self
  constructor
  case seed_label => exact update_label h.seed_label
  case kept =>
    intro v hv
    have hvj : v ≠ j := fun heq => hv (heq ▸ hnew)
    rw [Function.update_of_ne hvj]
    exact h.kept v hv
  case added =>
    intro v hv
    by_cases hvj : v = j
    · rw [hvj, Function.update_self]
      exact .inr rfl
    · rw [Function.update_of_ne hvj]
      exact h.added v hv
  case awaited =>
    intro v w hcore hv hvw
    cases label_of_update hv with
    | inl hvj =>
        by_cases hw : Function.update labels j (clusterId : Int) w = -1
        · right
          rw [← hvj, if_pos hcore]
          apply List.mem_append_right
          rw [List.mem_filter, mem_neighbors]
          exact ⟨hvw, decide_eq_true (hvj ▸ hw)⟩
        · exact .inl hw
    | inr hv =>
        cases h.awaited v w hcore hv hvw with
        | inl hw => exact .inl (update_labelled hw)
        | inr hw =>
            cases hw with
            | head =>
                left
                rw [Function.update_self]
                omega
            | tail _ hw => exact .inr (List.mem_append_left _ hw)
  case queued =>
    intro v hv
    cases List.mem_append.mp hv with
    | inl hv =>
        obtain ⟨w, hw, hwlabel, hwv⟩ := h.queued v (List.mem_cons_of_mem j hv)
        exact ⟨w, hw, update_label hwlabel, hwv⟩
    | inr hv =>
        split at hv
        case isTrue hcore =>
          rw [List.mem_filter, mem_neighbors] at hv
          exact ⟨j, hcore, Function.update_self .., hv.1⟩
        case isFalse => cases hv
  case connected =>
    intro v hcore hv
    cases label_of_update hv with
    | inl hvj =>
        rw [hvj] at hcore ⊢
        exact (h.connected u hu hulabel).tail ⟨hu, hcore, huj⟩
    | inr hv => exact h.connected v hcore hv
  case reached =>
    intro v hv
    cases label_of_update hv with
    | inl hvj => exact .inr ⟨u, hu, hvj ▸ huj, update_label hulabel⟩
    | inr hv =>
        cases h.reached v hv with
        | inl hcore => exact .inl hcore
        | inr hreached =>
            obtain ⟨w, hw, hwv, hwlabel⟩ := hreached
            exact .inr ⟨w, hw, hwv, update_label hwlabel⟩

/-- A point of an earlier cluster is dropped. -/
theorem Filling.skip {j : Fin n} (h : Filling near minPoints before clusterId seed labels (j :: queue))
    (hlabel : labels j ≠ -1) : Filling near minPoints before clusterId seed labels queue where
  seed_label := h.seed_label
  kept := h.kept
  added := h.added
  awaited := by
    intro v w hcore hv hvw
    cases h.awaited v w hcore hv hvw with
    | inl hw => exact .inl hw
    | inr hw =>
        cases hw with
        | head => exact .inl hlabel
        | tail _ hw => exact .inr hw
  queued := fun v hv => h.queued v (List.mem_cons_of_mem j hv)
  connected := h.connected
  reached := h.reached

/-- The queue runs empty, and the cluster has been filled. -/
theorem filling_expand (hbefore : ∀ v, before v ≠ clusterId)
    (h : Filling near minPoints before clusterId seed labels queue) :
    Filling near minPoints before clusterId seed (expand near minPoints clusterId labels queue) [] := by
  induction labels, queue using expand.induct near minPoints clusterId with
  | case1 labels => rwa [expand]
  | case2 labels j queue ih =>
      rw [expand]
      apply ih
      obtain ⟨hnoise, hother, hvisit⟩ | ⟨hlabel, hvisit⟩ := visit_cases near minPoints clusterId labels j
      · rw [hvisit, List.append_nil]
        exact h.skip hnoise
      · rw [hvisit]
        refine h.update ?_
        by_contra hne
        have hkept := h.kept j hne
        cases hlabel with
        | inl hnoise => exact hne (hkept ▸ hnoise)
        | inr hsame => exact hbefore j (hkept ▸ hsame)

theorem filling_start (hseed : Core near minPoints seed) (hnoise : before seed = -1)
    (hbefore : ∀ v, before v ≠ clusterId) :
    Filling near minPoints before clusterId seed (Function.update before seed (clusterId : Int))
    (neighbors near seed) := by
  have honly : ∀ v, Function.update before seed (clusterId : Int) v = clusterId → v = seed :=
    fun v hv => (label_of_update hv).resolve_right (hbefore v)
  constructor
  case seed_label => exact Function.update_self ..
  case kept =>
    intro v hv
    have hne : v ≠ seed := fun heq => hv (heq ▸ hnoise)
    exact Function.update_of_ne hne ..
  case added =>
    intro v hv
    by_cases heq : v = seed
    · rw [heq, Function.update_self]
      exact .inr rfl
    · rw [Function.update_of_ne heq]
      exact .inl hv
  case awaited =>
    intro v w hcore hv hvw
    rw [honly v hv] at hvw
    exact .inr (mem_neighbors.mpr hvw)
  case queued => exact fun v hv => ⟨seed, hseed, Function.update_self .., mem_neighbors.mp hv⟩
  case connected =>
    intro v hcore hv
    rw [honly v hv]
  case reached => exact fun v hv => .inl (honly v hv ▸ hseed)

theorem linked_symm (hsymm : ∀ i j, near i j = near j i) {i j : Fin n} (h : Linked near minPoints i j) :
    Linked near minPoints j i := ⟨h.2.1, h.1, hsymm i j ▸ h.2.2⟩

/-- A filled cluster joins the ones that were found before. -/
theorem closed_of_filling (hsymm : ∀ i j, near i j = near j i) (hclosed : Closed near minPoints before clusterId)
    (h : Filling near minPoints before clusterId seed labels []) :
    Closed near minPoints labels (clusterId + 1) := by
  have hid : (clusterId : Int) ≠ -1 := by omega
  have hsymmetric : Std.Symm (Linked near minPoints) := ⟨fun i j hij => linked_symm hsymm hij⟩
  -- a point has its old label, or it is in the new cluster
  have hcases : ∀ v, labels v ≠ -1 → (before v ≠ -1 ∧ labels v = before v) ∨
      (before v = -1 ∧ labels v = clusterId) := by
    intro v hv
    by_cases hold : before v = -1
    · exact .inr ⟨hold, (h.added v hold).resolve_left hv⟩
    · exact .inl ⟨hold, h.kept v hold⟩
  have hlow : ∀ v, before v ≠ -1 → before v ≠ clusterId := by
    intro v hv
    have hlt := (hclosed.bounded v).resolve_left hv
    omega
  constructor
  case bounded =>
    intro v
    by_cases hv : labels v = -1
    · exact .inl hv
    · right
      obtain ⟨hold, heq⟩ | ⟨-, heq⟩ := hcases v hv
      · have hlt := (hclosed.bounded v).resolve_left hold
        omega
      · omega
  case closed =>
    intro v w hcore hv hvw
    obtain ⟨hold, -⟩ | ⟨-, heq⟩ := hcases v hv
    · have hw := hclosed.closed v w hcore hold hvw
      rwa [h.kept w hw]
    · exact (h.awaited v w hcore heq hvw).resolve_right List.not_mem_nil
  case linked =>
    intro v w hlink hv
    obtain ⟨hold, heq⟩ | ⟨hnew, heq⟩ := hcases v hv
    · rw [heq, ← hclosed.linked v w hlink hold]
      exact h.kept w (hclosed.closed v w hlink.1 hold hlink.2.2)
    · have hw := (h.awaited v w hlink.1 heq hlink.2.2).resolve_right List.not_mem_nil
      obtain ⟨hold, -⟩ | ⟨-, heq'⟩ := hcases w hw
      · exact absurd hnew (hclosed.closed w v hlink.2.1 hold (linked_symm hsymm hlink).2.2)
      · rw [heq, heq']
  case connected =>
    intro v w hcore hcore' hv hvw
    have hw : labels w ≠ -1 := hvw ▸ hv
    obtain ⟨hold, heq⟩ | ⟨hnew, heq⟩ := hcases v hv
    · obtain ⟨hold', heq'⟩ | ⟨-, heq'⟩ := hcases w hw
      · exact hclosed.connected v w hcore hcore' hold (heq.symm.trans (hvw.trans heq'))
      · exact absurd (heq.symm.trans (hvw.trans heq')) (hlow v hold)
    · have hback := Relation.ReflTransGen.stdSymm.symm _ _ (h.connected v hcore heq)
      exact hback.trans (h.connected w hcore' (hvw.symm.trans heq))
  case reached =>
    intro v hv
    obtain ⟨hold, heq⟩ | ⟨-, heq⟩ := hcases v hv
    · cases hclosed.reached v hold with
      | inl hcore => exact .inl hcore
      | inr hreached =>
          obtain ⟨u, hu, huv, hlabel⟩ := hreached
          refine .inr ⟨u, hu, huv, ?_⟩
          rw [heq, hlabel, h.kept u (hlabel ▸ hold)]
    · cases h.reached v heq with
      | inl hcore => exact .inl hcore
      | inr hreached =>
          obtain ⟨u, hu, huv, hlabel⟩ := hreached
          exact .inr ⟨u, hu, huv, heq.trans hlabel.symm⟩
  case used =>
    intro c hc
    by_cases hlast : c = clusterId
    · exact ⟨seed, hlast ▸ h.seed_label⟩
    · obtain ⟨v, hv⟩ := hclosed.used c (by omega)
      have hold : before v ≠ -1 := by omega
      exact ⟨v, (h.kept v hold).trans hv⟩

/-- A round of the outer loop: labels are kept, a core point has one afterwards, and the clusters stay closed. -/
theorem closed_scan (hsymm : ∀ i j, near i j = near j i) {state : Labels n × Nat} (i : Fin n)
    (h : Closed near minPoints state.1 state.2) :
    Closed near minPoints (scan near minPoints state i).1 (scan near minPoints state i).2 ∧
      (∀ v, state.1 v ≠ -1 → (scan near minPoints state i).1 v ≠ -1) ∧
      (Core near minPoints i → (scan near minPoints state i).1 i ≠ -1) := by
  unfold scan
  by_cases hlabel : state.1 i ≠ -1
  · rw [if_pos hlabel]
    exact ⟨h, fun v hv => hv, fun _ => hlabel⟩
  rw [if_neg hlabel]
  by_cases hfew : (neighbors near i).length < minPoints
  · rw [if_pos hfew]
    exact ⟨h, fun v hv => hv, fun hcore => absurd hfew (Nat.not_lt.mpr hcore)⟩
  rw [if_neg hfew]
  have hbefore : ∀ v, state.1 v ≠ state.2 := by
    intro v
    have hbound := h.bounded v
    omega
  have hfilled := filling_expand hbefore (filling_start (Nat.not_lt.mp hfew) (not_not.mp hlabel) hbefore)
  refine ⟨closed_of_filling hsymm h hfilled, ?_, ?_⟩
  · intro v hv
    show expand near minPoints state.2 _ _ v ≠ -1
    rwa [hfilled.kept v hv]
  · intro _
    show expand near minPoints state.2 _ _ i ≠ -1
    rw [hfilled.seed_label]
    omega

theorem closed_foldl (hsymm : ∀ i j, near i j = near j i) (indices : List (Fin n)) {state : Labels n × Nat}
    (h : Closed near minPoints state.1 state.2) :
    Closed near minPoints (indices.foldl (scan near minPoints) state).1
      (indices.foldl (scan near minPoints) state).2 ∧
        (∀ v, state.1 v ≠ -1 → (indices.foldl (scan near minPoints) state).1 v ≠ -1) ∧
      ∀ i ∈ indices, Core near minPoints i → (indices.foldl (scan near minPoints) state).1 i ≠ -1 := by
  induction indices generalizing state with
  | nil => exact ⟨h, fun v hv => hv, List.forall_mem_nil _⟩
  | cons i rest ih =>
      obtain ⟨hstep, hkept, hlabel⟩ := closed_scan hsymm i h
      obtain ⟨hrun, hkept', hlabels⟩ := ih hstep
      refine ⟨hrun, fun v hv => hkept' v (hkept v hv), List.forall_mem_cons.mpr ⟨?_, hlabels⟩⟩
      exact fun hcore => hkept' i (hlabel hcore)

/-- Closed clusters with a label for every core point are those of DBSCAN. -/
theorem clustering_of_closed {clusterCount : Nat} (h : Closed near minPoints labels clusterCount)
    (hall : ∀ i, Core near minPoints i → labels i ≠ -1) : Clustering near minPoints labels clusterCount where
  noise_iff := by
    intro i
    constructor
    · intro hnoise
      refine ⟨fun hcore => hall i hcore hnoise, fun j hcore => ?_⟩
      by_contra hnear
      exact h.closed j i hcore (hall j hcore) (Bool.not_eq_false _ ▸ hnear) hnoise
    · intro hi
      by_contra hlabel
      cases h.reached i hlabel with
      | inl hcore => exact hi.1 hcore
      | inr hreached =>
          obtain ⟨u, hu, hui, -⟩ := hreached
          rw [hi.2 u hu] at hui
          cases hui
  core_iff := by
    intro i j hi hj
    constructor
    · exact h.connected i j hi hj (hall i hi)
    · intro hchain
      induction hchain with
      | refl => rfl
      | tail _ hlink ih => exact (ih hlink.1).trans (h.linked _ _ hlink (hall _ hlink.1)).symm
  border := fun i hlabel hcore => (h.reached i hlabel).resolve_left hcore
  used_iff := by
    intro label
    constructor
    · intro hused
      obtain ⟨i, hlabel, hne⟩ := hused
      have hbound := h.bounded i
      omega
    · intro hbound
      obtain ⟨v, hv⟩ := h.used label.toNat (by omega)
      exact ⟨v, by omega, by omega⟩

/-- The answer of the handler is a clustering of DBSCAN, for every symmetric neighbour relation. -/
theorem dbscanCluster_correct {Point : Type} {isValidCoord : Point → Bool} {near : Point → Point → Bool}
    (hsymm : ∀ p q, near p q = near q p) (points : List Point) (minPoints : Nat)
    (hvalid : ∀ p ∈ points, isValidCoord p = true) :
    ∃ (labels : Labels points.length) (clusterCount : Nat),
      dbscanCluster isValidCoord near points minPoints = .ok (collection points labels clusterCount) ∧
        Clustering (fun i j => near (points.get i) (points.get j)) minPoints labels clusterCount := by
  have hnone : validatePoints isValidCoord points = none := by
    rw [validatePoints, List.find?_eq_none.mpr fun p hp => by simp [hvalid p hp], Option.map_none]
  refine ⟨_, _, by rw [dbscanCluster, hnone], ?_⟩
  have hstart : Closed (fun i j => near (points.get i) (points.get j)) minPoints (fun _ => -1) 0 :=
    ⟨fun _ => .inl rfl, fun v w _ hv => absurd rfl hv, fun v w _ hv => absurd rfl hv,
      fun v w _ _ hv => absurd rfl hv, fun v hv => absurd rfl hv, fun c hc => absurd hc (Nat.not_lt_zero c)⟩
  have hnear : ∀ i j : Fin points.length, near (points.get i) (points.get j) = near (points.get j) (points.get i) :=
    fun i j => hsymm _ _
  obtain ⟨hclosed, -, hall⟩ := @closed_foldl _ _ _ hnear (List.finRange points.length) (fun _ => -1, 0) hstart
  exact clustering_of_closed hclosed fun i hcore => hall i (List.mem_finRange i) hcore

/-- Two clusters and a point that belongs to none, on a line. -/
def onLine : List Nat := [0, 9, 1, 5, 2, 10, 11, 3]

def nextTo (p q : Nat) : Bool := p ≤ q + 1 && q ≤ p + 1

theorem dbscanCluster_onLine :
    ∃ (labels : Labels onLine.length) (clusterCount : Nat),
      dbscanCluster (fun _ => true) nextTo onLine 3 = .ok (collection onLine labels clusterCount) ∧
        Clustering (fun i j => nextTo (onLine.get i) (onLine.get j)) 3 labels clusterCount :=
  dbscanCluster_correct (fun _ _ => Bool.and_comm _ _) onLine 3 (fun _ _ => rfl)

end Proofs

end Inec.Spatial
