import ExprLex.Proofs.Grammar.Selection

namespace ExprLex.Offer

variable {offers more : List Offer} {best offer other : Offer}

/-- Whether `best` is what should win among the offers of a list. -/
structure Prevails (best : Offer) (offers : List Offer) : Prop where
  positive : 0 < best.2.length
  longest : ∀ offer ∈ offers, offer.2.length ≤ best.2.length
  least : ∀ offer ∈ offers, offer.2.length = best.2.length → best.1 ≤ offer.1
  earliest : ∃ before behind, offers = before ++ best :: behind ∧
    ∀ offer ∈ before, offer.2.length = best.2.length → offer.1 ≠ best.1

theorem Prevails.mem (prevails : best.Prevails offers) : best ∈ offers := by
  obtain ⟨before, behind, rfl, -⟩ := prevails.earliest
  exact List.mem_append_right _ List.mem_cons_self

theorem Prevails.unique (prevails : best.Prevails offers) (prevailsToo : other.Prevails offers) :
    best = other := by
  have length : best.2.length = other.2.length :=
    Nat.le_antisymm (prevailsToo.longest best prevails.mem) (prevails.longest other prevailsToo.mem)
  have rank : best.1 = other.1 :=
    Nat.le_antisymm (prevails.least other prevailsToo.mem length.symm)
      (prevailsToo.least best prevails.mem length)
  obtain ⟨before, behind, split, first⟩ := prevails.earliest
  obtain ⟨beforeToo, behindToo, splitToo, firstToo⟩ := prevailsToo.earliest
  -- Neither stands before the other.
  rcases List.append_eq_append_iff.mp (split.symm.trans splitToo) with
    ⟨between, rfl, same⟩ | ⟨between, rfl, same⟩
  · cases between with
    | nil => exact (List.cons.inj same).1
    | cons offer between =>
        obtain ⟨rfl, -⟩ := List.cons.inj same
        exact absurd rank (firstToo best (by simp) length)
  · cases between with
    | nil => exact (List.cons.inj same).1.symm
    | cons offer between =>
        obtain ⟨rfl, -⟩ := List.cons.inj same
        exact absurd rank.symm (first other (by simp) length.symm)

theorem exists_before (won : longest offers = some best) : ∃ before behind,
    offers = before ++ best :: behind ∧
      ∀ offer ∈ before, offer.2.length = best.2.length → offer.1 ≠ best.1 := by
  induction offers using List.reverseRecOn with
  | nil => cases won
  | append_singleton offers offer ih =>
      rcases longest_append_cases won with ⟨found, -⟩ | ⟨rfl, positive, beaten⟩
      · obtain ⟨before, behind, rfl, first⟩ := ih found
        exact ⟨before, behind ++ [offer], by simp, first⟩
      · refine ⟨offers, [], rfl, fun other member same => ?_⟩
        cases found : longest offers with
        | none =>
            have empty := longest_eq_none.mp found other member
            omega
        | some second =>
            have top := (longest_eq_some found).2.2 other member
            have better := beats_iff.mp (beaten second found)
            omega

theorem longest_eq_some_iff : longest offers = some best ↔ best.Prevails offers := by
  have prevails {winner : Offer} (won : longest offers = some winner) : winner.Prevails offers := by
    obtain ⟨-, positive, top⟩ := longest_eq_some won
    refine ⟨positive, fun offer member => ?_, fun offer member same => ?_, exists_before won⟩
    · have bound := top offer member
      omega
    · have bound := top offer member
      omega
  refine ⟨prevails, fun chosen => ?_⟩
  cases won : longest offers with
  | none =>
      have empty := longest_eq_none.mp won best chosen.mem
      have positive := chosen.positive
      omega
  | some winner => exact congrArg some ((prevails won).unique chosen)

theorem Prevails.perm {offersToo : List Offer} (perm : offers.Perm offersToo)
    (distinct : (offers.map Prod.fst).Nodup) (prevails : best.Prevails offers) :
    best.Prevails offersToo := by
  have member : best ∈ offersToo := perm.mem_iff.mp prevails.mem
  obtain ⟨before, behind, rfl⟩ := List.append_of_mem member
  refine ⟨prevails.positive, fun offer listed => prevails.longest offer (perm.mem_iff.mpr listed),
    fun offer listed => prevails.least offer (perm.mem_iff.mpr listed), before, behind, rfl, ?_⟩
  intro offer listed _ same
  have apart := (perm.map Prod.fst).nodup_iff.mp distinct
  rw [List.map_append, List.map_cons, List.nodup_append] at apart
  exact apart.2.2 _ (List.mem_map_of_mem listed) _ List.mem_cons_self same

theorem longest_perm {offersToo : List Offer} (perm : offers.Perm offersToo)
    (distinct : (offers.map Prod.fst).Nodup) : longest offers = longest offersToo := by
  cases won : longest offers with
  | none =>
      have empty : longest offersToo = none :=
        longest_eq_none.mpr fun offer member =>
          longest_eq_none.mp won offer (perm.mem_iff.mpr member)
      exact empty.symm
  | some best =>
      have prevails := longest_eq_some_iff.mp won
      exact (longest_eq_some_iff.mpr (prevails.perm perm distinct)).symm

theorem beats_trans (beats : other.beats offer = true) (beaten : offer.beats best = true) :
    other.beats best = true := by
  rw [beats_iff] at *
  omega

theorem beats_of_beats (beats : other.beats best = true) :
    other.beats offer = true ∨ offer.beats best = true := by
  simp only [beats_iff] at *
  omega

theorem prefer_prefer (positive : 0 < offer.2.length) (best : Option Offer) (other : Offer) :
    prefer (prefer best offer) other = (prefer (some offer) other).toList.foldl prefer best := by
  by_cases empty : other.2.length = 0
  · rw [prefer_empty empty, prefer_empty empty]
    rfl
  have positiveToo := Nat.pos_of_ne_zero empty
  rw [prefer_some positiveToo]
  cases best with
  | none =>
      rw [prefer_none positive, prefer_some positiveToo]
      split
      · exact (prefer_none positiveToo).symm
      · exact (prefer_none positive).symm
  | some best =>
      -- Whether the last offer beats the one before it, and whether that one beats the first.
      by_cases later : other.beats offer = true
      · rw [if_pos later, prefer_some positive]
        split
        · rename_i beaten
          simp [prefer_some positiveToo, later, beats_trans later beaten]
        · rfl
      · rw [if_neg later, prefer_some positive]
        split
        · rename_i beaten
          simp [prefer_some positive, prefer_some positiveToo, later, beaten]
        · rename_i unbeaten
          have kept : ¬ other.beats best = true := fun beats =>
            (beats_of_beats beats).elim later unbeaten
          simp [prefer_some positive, prefer_some positiveToo, kept, unbeaten]

theorem foldl_prefer (best : Option Offer) (offers : List Offer) :
    offers.foldl prefer best = (longest offers).toList.foldl prefer best := by
  induction offers using List.reverseRecOn with
  | nil => rfl
  | append_singleton offers offer ih =>
      rw [List.foldl_append, List.foldl_cons, List.foldl_nil, ih, longest_append]
      cases won : longest offers with
      | none =>
          by_cases empty : offer.2.length = 0
          · simp [prefer_empty empty]
          · simp [prefer_none (Nat.pos_of_ne_zero empty)]
      | some winner => exact prefer_prefer (longest_eq_some won).2.1 best offer

theorem longest_toList (offers : List Offer) : longest (longest offers).toList = longest offers :=
  (foldl_prefer none offers).symm

theorem longest_winners (offers more : List Offer) : longest (offers ++ more) =
    longest ((longest offers).toList ++ (longest more).toList) := by
  calc longest (offers ++ more)
    _ = more.foldl prefer (longest offers) := List.foldl_append
    _ = (longest more).toList.foldl prefer (longest (longest offers).toList) := by
        rw [foldl_prefer, longest_toList]
    _ = longest ((longest offers).toList ++ (longest more).toList) := List.foldl_append.symm

/-- The longest offer wins, the one of smallest rank among equally long ones and the first among
equally good ones; nothing wins only if all are empty. So offers of different ranks may come in any
order, and of two lists only the winners matter. -/
theorem longest_prevails (offers : List Offer) :
    (longest offers = none ↔ ∀ offer ∈ offers, offer.2.length = 0) ∧
    (∀ best, longest offers = some best ↔ best.Prevails offers) ∧
    (∀ offersToo, offers.Perm offersToo → (offers.map Prod.fst).Nodup →
      longest offers = longest offersToo) ∧
    ∀ more, longest (offers ++ more) =
      longest ((longest offers).toList ++ (longest more).toList) :=
  ⟨longest_eq_none, fun _ => longest_eq_some_iff, fun _ => longest_perm, longest_winners offers⟩

theorem longest_prevails_tied :
    let offers : List Offer :=
      [(5, .accept 3 .identifier), (0, .accept 0 .dot), (2, .reject 3 .malformedNumber)]
    offers.Perm offers.reverse ∧ (offers.map Prod.fst).Nodup ∧
      longest offers = longest offers.reverse ∧
      Prevails (2, .reject 3 .malformedNumber) offers := by
  intro offers
  obtain ⟨-, prevails, reordered, -⟩ := longest_prevails offers
  have perm : offers.Perm offers.reverse := offers.reverse_perm.symm
  have distinct : (offers.map Prod.fst).Nodup := by decide
  exact ⟨perm, distinct, reordered _ perm distinct, (prevails _).mp rfl⟩

end ExprLex.Offer
