import Inec.Declaration.Assessment

/-!
# The ranking of the parties

`assessDeclaration` copies the map of party totals into a slice, in the order in which the map is ranged over,
sorts the slice by exchanging, and reports what stands in its first two places. The order decides which of the
parties with equal votes stands first. It does not decide on the votes in any place, so neither the margin nor
the tie depends on it.
-/

namespace Inec

/-- A finite map of party totals. -/
structure PartyTotals where
  parties : List String
  distinct : parties.Nodup
  votes : String → Int

namespace PartyTotals

variable (totals : PartyTotals)

/-- The entries in the order in which the map is ranged over. -/
def entries (order : IterationOrder) : List (String × Int) :=
  (order.arrange totals.parties).map fun party => (party, totals.votes party)

/-- The slice after the loop. -/
def ranked (order : IterationOrder) : List (String × Int) := rankParties (totals.entries order)

/-- What is reported of the slice. -/
def lead (order : IterationOrder) : Leaders := leaders (totals.ranked order)

/-- Each party once with its votes, most votes first, and the leaders as they are reported. -/
structure RankedRightly (order : IterationOrder) : Prop where
  perm : ((totals.ranked order).map Prod.fst).Perm totals.parties
  votes : ∀ entry ∈ totals.ranked order, entry.2 = totals.votes entry.1
  sorted : (totals.ranked order).Pairwise fun x y => y.2 ≤ x.2
  winner : totals.parties ≠ [] → (totals.lead order).winnerParty ∈ totals.parties ∧
    (totals.lead order).winnerVotes = totals.votes (totals.lead order).winnerParty ∧
    ∀ party ∈ totals.parties, totals.votes party ≤ (totals.lead order).winnerVotes
  runnerUp : 1 < totals.parties.length → (totals.lead order).runnerUpParty ∈ totals.parties ∧
    (totals.lead order).runnerUpParty ≠ (totals.lead order).winnerParty ∧
    (totals.lead order).runnerUpVotes = totals.votes (totals.lead order).runnerUpParty ∧
    ∀ party ∈ totals.parties, party ≠ (totals.lead order).winnerParty →
      totals.votes party ≤ (totals.lead order).runnerUpVotes

/-- The reported numbers, and whether there is a tie, are the same in both orders. -/
structure SameLead (order order' : IterationOrder) : Prop where
  winnerVotes : (totals.lead order).winnerVotes = (totals.lead order').winnerVotes
  runnerUpVotes : (totals.lead order).runnerUpVotes = (totals.lead order').runnerUpVotes
  margin : (totals.lead order).margin = (totals.lead order').margin
  tie : (totals.lead order).tie = (totals.lead order').tie

variable {totals}

/-! ### One order -/

theorem ranked_perm (order : IterationOrder) : (totals.ranked order).Perm
    (totals.parties.map fun party => (party, totals.votes party)) :=
  (ExchangeSort.sort_perm _).trans ((order.perm totals.parties).map _)

theorem mem_ranked {order : IterationOrder} {entry : String × Int} :
    entry ∈ totals.ranked order ↔ entry.1 ∈ totals.parties ∧ entry.2 = totals.votes entry.1 := by
  rw [(ranked_perm order).mem_iff, List.mem_map]
  constructor
  · rintro ⟨party, hparty, rfl⟩
    exact ⟨hparty, rfl⟩
  · rintro ⟨hparty, hvotes⟩
    exact ⟨entry.1, hparty, Prod.ext rfl hvotes.symm⟩

theorem map_fst_ranked_perm (order : IterationOrder) :
    ((totals.ranked order).map Prod.fst).Perm totals.parties := by
  have hperm := (@ranked_perm totals order).map Prod.fst
  rw [List.map_map] at hperm
  exact hperm.trans (List.map_id _ ▸ List.Perm.refl _)

/-- What stands in the first two places. -/
theorem rankedRightly (order : IterationOrder) : totals.RankedRightly order := by
  have hperm := @map_fst_ranked_perm totals order
  have hlength : (totals.ranked order).length = totals.parties.length := by
    rw [(ranked_perm order).length_eq, List.length_map]
  have hsorted : (totals.ranked order).Pairwise fun x y => y.2 ≤ x.2 := ExchangeSort.sort_sorted _
  have hmem := @mem_ranked totals order
  have hnodup : ((totals.ranked order).map Prod.fst).Nodup := hperm.nodup_iff.mpr totals.distinct
  have hentry {party : String} (hparty : party ∈ totals.parties) :
      (party, totals.votes party) ∈ totals.ranked order := hmem.mpr ⟨hparty, rfl⟩
  refine ⟨hperm, fun entry hmember => (hmem.mp hmember).2, hsorted, ?_, ?_⟩
  · intro hne
    rw [lead]
    match hranked : totals.ranked order with
    | [] =>
        rw [hranked] at hlength
        exact absurd (List.length_eq_zero_iff.mp hlength.symm) hne
    | winner :: rest =>
        rw [hranked] at hsorted hmem hentry
        have hfirst : (leaders (winner :: rest)).winnerParty = winner.1 ∧
            (leaders (winner :: rest)).winnerVotes = winner.2 := by
          cases rest <;> exact ⟨rfl, rfl⟩
        rw [hfirst.1, hfirst.2]
        obtain ⟨hin, hvotes⟩ := hmem.mp List.mem_cons_self
        refine ⟨hin, hvotes, ?_⟩
        intro party hparty
        rcases List.mem_cons.mp (hentry hparty) with heq | hrest
        · rw [← heq]
        · exact (List.pairwise_cons.mp hsorted).1 _ hrest
  · intro hmany
    rw [lead]
    match hranked : totals.ranked order with
    | [] =>
        rw [hranked, List.length_nil] at hlength
        omega
    | [_] =>
        rw [hranked, List.length_singleton] at hlength
        omega
    | winner :: runnerUp :: rest =>
        rw [hranked] at hsorted hmem hentry hnodup
        obtain ⟨hin, hvotes⟩ := hmem.mp (List.mem_cons_of_mem _ List.mem_cons_self)
        rw [List.map_cons, List.map_cons, List.nodup_cons] at hnodup
        refine ⟨hin, ?_, hvotes, ?_⟩
        · intro heq
          have hcodes : runnerUp.1 = winner.1 := heq
          exact hnodup.1 (hcodes ▸ List.mem_cons_self)
        · intro party hparty hother
          rcases List.mem_cons.mp (hentry hparty) with heq | hlater
          · exact absurd (congrArg Prod.fst heq) hother
          · rcases List.mem_cons.mp hlater with heq | hrest
            · exact (congrArg Prod.snd heq).le
            · exact (List.pairwise_cons.mp (List.pairwise_cons.mp hsorted).2).1 _ hrest

/-! ### Two orders -/

/-- What is reported of the votes only depends on the votes in each place. -/
theorem leaders_congr {ranked ranked' : List (String × Int)} (h : ranked.map Prod.snd = ranked'.map Prod.snd) :
    (leaders ranked).winnerVotes = (leaders ranked').winnerVotes ∧
      (leaders ranked).runnerUpVotes = (leaders ranked').runnerUpVotes ∧
      (leaders ranked).margin = (leaders ranked').margin ∧ (leaders ranked).tie = (leaders ranked').tie := by
  match ranked, ranked' with
  | [], [] => exact ⟨rfl, rfl, rfl, rfl⟩
  | [winner], [winner'] =>
      have hvotes : winner.2 = winner'.2 := (List.cons.inj h).1
      exact ⟨hvotes, rfl, rfl, rfl⟩
  | [_], _ :: _ :: _ => cases (List.cons.inj h).2
  | _ :: _ :: _, [_] => cases (List.cons.inj h).2
  | winner :: runnerUp :: _, winner' :: runnerUp' :: _ =>
      obtain ⟨hfirst, hrest⟩ := List.cons.inj h
      have hsecond : runnerUp.2 = runnerUp'.2 := (List.cons.inj hrest).1
      simp only [leaders]
      rw [hfirst, hsecond]
      exact ⟨rfl, rfl, rfl, rfl⟩

theorem sameLead (order order' : IterationOrder) : totals.SameLead order order' := by
  have hentries : (totals.entries order).Perm (totals.entries order') :=
    ((order.perm totals.parties).trans (order'.perm totals.parties).symm).map _
  have hvotes : (totals.ranked order).map Prod.snd = (totals.ranked order').map Prod.snd :=
    ExchangeSort.map_sort_eq_of_perm hentries
  obtain ⟨hwinner, hrunnerUp, hmargin, htie⟩ := leaders_congr hvotes
  exact ⟨hwinner, hrunnerUp, hmargin, htie⟩

end PartyTotals

/-! ### The assessment -/

/-- The national totals of an election. -/
def nationalTotals (db : Tables) (electionId : Int) : PartyTotals where
  parties := partiesOf db (collatedRows db electionId .national "NG")
  distinct := (List.perm_insertionSort _ _).nodup_iff.mpr (List.nodup_dedup _)
  votes := partySum db (collatedRows db electionId .national "NG")

/-- An assessment reports the leaders of the national totals. -/
theorem assessDeclaration_lead {order : IterationOrder} {db : Tables} {electionId : Int} {a : DeclarationAssessment}
    (ha : assessDeclaration order db electionId = .ok a) :
    (nationalTotals db electionId).lead order =
      ⟨a.winnerParty, a.winnerVotes, a.runnerUpParty, a.runnerUpVotes, a.margin, a.tie⟩ := by
  obtain ⟨e, hfound, rfl⟩ := assessDeclaration_eq_ok.mp ha
  obtain rfl : e.id = electionId := (Tables.mem_of_election? hfound).2
  rfl

/-- Every finite map of totals is ranked rightly in every order of iteration, what is reported of the votes is the
same in all of them, and an assessment reports just that of the national totals. -/
theorem ranking_right :
    (∀ (totals : PartyTotals) (order order' : IterationOrder),
      totals.RankedRightly order ∧ totals.SameLead order order') ∧
    ∀ (order : IterationOrder) (db : Tables) (electionId : Int) (a : DeclarationAssessment),
      assessDeclaration order db electionId = .ok a →
        (nationalTotals db electionId).lead order =
          ⟨a.winnerParty, a.winnerVotes, a.runnerUpParty, a.runnerUpVotes, a.margin, a.tie⟩ := by
  constructor
  · intro totals order order'
    exact ⟨PartyTotals.rankedRightly order, PartyTotals.sameLead order order'⟩
  · intro order db electionId a ha
    exact assessDeclaration_lead ha

/-- Two parties are level: who stands first depends on the order, and the margin does not. -/
example : (PartyTotals.lead ⟨["A", "B"], by decide, fun _ => 60⟩ ⟨List.reverse,
      List.reverse_perm⟩).winnerParty = "B" ∧
    (PartyTotals.lead ⟨["A", "B"], by decide, fun _ => 60⟩ ⟨fun parties => parties,
      fun _ => .rfl⟩).winnerParty = "A" := by
  decide

end Inec
