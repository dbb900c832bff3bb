/-!
# Substitution in a text

Every occurrence of one text is replaced by another, from the left and without overlaps. Pieces put
together with a separator hold no text that is apart from the separator and from every piece.
-/

namespace Substitute

variable {α : Type}

section
variable [BEq α]

/-- The first `skip` characters belong to an occurrence that is replaced already. -/
def replaceFrom (t m : List α) : (skip : Nat) → List α → List α
  | _, [] => []
  | skip + 1, _ :: s => replaceFrom t m skip s
  | 0, c :: s => if t.isPrefixOf (c :: s) then m ++ replaceFrom t m (t.length - 1) s else c :: replaceFrom t m 0 s

def replace (t m s : List α) : List α := replaceFrom t m 0 s

theorem replaceFrom_skip (t m : List α) (skip : Nat) (s : List α) :
    replaceFrom t m skip s = replaceFrom t m 0 (s.drop skip) := by
  induction s generalizing skip with
  | nil => simp [replaceFrom]
  | cons c s ih =>
    cases skip with
    | zero => rfl
    | succ skip => simpa [replaceFrom] using ih skip

end

/-! ## Pieces -/

theorem intercalate_pair (sep a b : List α) (l : List (List α)) :
    List.intercalate sep (a :: b :: l) = a ++ (sep ++ List.intercalate sep (b :: l)) := by
  cases l <;> simp [List.intercalate]

theorem intercalate_cons (sep : List α) (c : α) (p : List α) (l : List (List α)) :
    List.intercalate sep ((c :: p) :: l) = c :: List.intercalate sep (p :: l) := by
  cases l with
  | nil => simp [List.intercalate]
  | cons b l => simp [intercalate_pair]

theorem prefix_intercalate (sep p : List α) (l : List (List α)) : p <+: List.intercalate sep (p :: l) := by
  cases l with
  | nil => simp [List.intercalate]
  | cons b l => rw [intercalate_pair]; exact List.prefix_append _ _

theorem infix_intercalate {sep : List α} {l : List (List α)} {p : List α} (h : p ∈ l) :
    p <:+: List.intercalate sep l := by
  induction l with
  | nil => cases h
  | cons a l ih =>
    rcases List.mem_cons.1 h with rfl | h
    · exact (prefix_intercalate sep _ l).isInfix
    · cases l with
      | nil => cases h
      | cons b l =>
        rw [intercalate_pair]
        exact List.infix_append_of_infix_right (List.infix_append_of_infix_right (ih h))

/-- The text falls into pieces between the occurrences, and no piece has one. -/
theorem replace_pieces [BEq α] [LawfulBEq α] {t : List α} (m : List α) (ht : t ≠ []) (s : List α) :
    ∃ p l, s = List.intercalate t (p :: l) ∧ replace t m s = List.intercalate m (p :: l) ∧
      ∀ q ∈ p :: l, ¬ t <:+: q := by
  induction hn : s.length using Nat.strongRecOn generalizing s with
  | ind n ih =>
    cases s with
    | nil =>
      refine ⟨[], [], rfl, rfl, ?_⟩
      intro q hq
      rw [List.mem_singleton.1 hq]
      exact fun h => ht (List.infix_nil.1 h)
    | cons c s =>
      by_cases hp : t.isPrefixOf (c :: s) = true
      · obtain ⟨rest, hrest⟩ := List.isPrefixOf_iff_prefix.1 hp
        have hpos : 0 < t.length := List.length_pos_iff.2 ht
        have hdrop : s.drop (t.length - 1) = rest := by
          have h : (c :: s).drop t.length = rest := by rw [← hrest, List.drop_left]
          obtain ⟨k, hk⟩ : ∃ k, t.length = k + 1 := ⟨t.length - 1, by omega⟩
          rw [hk, List.drop_succ_cons] at h
          rw [hk, Nat.add_sub_cancel, h]
        have hlen : rest.length < n := by
          have h := congrArg List.length hrest
          simp only [List.length_append] at h
          omega
        obtain ⟨p, l, hs, hr, hall⟩ := ih rest.length hlen rest rfl
        refine ⟨[], p :: l, ?_, ?_, ?_⟩
        · rw [intercalate_pair, ← hs, List.nil_append, hrest]
        · rw [intercalate_pair, ← hr, List.nil_append]
          simp only [replace, replaceFrom, if_pos hp]
          rw [replaceFrom_skip, hdrop]
        · intro q hq
          rcases List.mem_cons.1 hq with rfl | hq
          · exact fun h => ht (List.infix_nil.1 h)
          · exact hall q hq
      · obtain ⟨p, l, hs, hr, hall⟩ := ih s.length (by rw [← hn]; simp) s rfl
        refine ⟨c :: p, l, ?_, ?_, ?_⟩
        · rw [intercalate_cons, ← hs]
        · rw [intercalate_cons, ← hr]
          simp only [replace, replaceFrom, if_neg hp]
        · intro q hq
          rcases List.mem_cons.1 hq with rfl | hq
          · intro h
            rcases List.infix_cons_iff.1 h with h | h
            · apply hp
              apply List.isPrefixOf_iff_prefix.2
              apply h.trans
              have hpre := prefix_intercalate t (c :: p) l
              rwa [intercalate_cons, ← hs] at hpre
            · exact hall p List.mem_cons_self h
          · exact hall q (List.mem_cons_of_mem _ hq)

/-! ## Apart -/

/-- The two texts cannot share a place: neither is within the other, and no end of one begins the
other. -/
structure Apart (s m : List α) : Prop where
  notWithin : ¬ s <:+: m
  notAround : ¬ m <:+: s
  notBegins : ∀ p, p ≠ [] → p <:+ m → ¬ p <+: s
  notEnds : ∀ p, p ≠ [] → p <+: m → ¬ p <:+ s

/-- A text apart from the separator lies on one side of it. -/
theorem Apart.side {s m a b : List α} (h : Apart s m) (hs : s <:+: a ++ (m ++ b)) : s <:+: a ∨ s <:+: b := by
  obtain ⟨u, v, huv⟩ := hs
  rw [List.append_assoc, List.append_eq_append_iff] at huv
  rcases huv with ⟨x, rfl, hx⟩ | ⟨x, rfl, hx⟩
  · -- it begins before the separator
    rw [List.append_eq_append_iff] at hx
    rcases hx with ⟨y, rfl, -⟩ | ⟨y, hy, hmb⟩
    · exact Or.inl ⟨u, y, by simp⟩
    · rcases List.append_eq_append_iff.1 hmb with ⟨z, rfl, -⟩ | ⟨z, hz, -⟩
      · exact absurd ⟨x, z, by rw [hy, List.append_assoc]⟩ h.notAround
      · by_cases hyn : y = []
        · subst hyn
          exact Or.inl ⟨u, [], by rw [hy]; simp⟩
        · exact absurd ⟨x, hy.symm⟩ (h.notEnds y hyn ⟨z, hz.symm⟩)
  · rcases List.append_eq_append_iff.1 hx with ⟨y, rfl, hy⟩ | ⟨y, hy, hb⟩
    · -- it begins after the separator
      exact Or.inr ⟨y, v, by rw [List.append_assoc, hy]⟩
    · by_cases hyn : y = []
      · subst hyn
        exact Or.inr ⟨[], v, by simpa using hb⟩
      · rcases List.append_eq_append_iff.1 hb with ⟨z, hz, -⟩ | ⟨z, rfl, -⟩
        · exact absurd ⟨x, z, by rw [hy, hz, List.append_assoc]⟩ h.notWithin
        · exact absurd ⟨z, rfl⟩ (h.notBegins y hyn ⟨x, hy.symm⟩)

/-- What is apart from the separator and in the whole is in one of the pieces. -/
theorem Apart.in_piece {s sep : List α} (h : Apart s sep) {p : List α} {l : List (List α)}
    (hs : s <:+: List.intercalate sep (p :: l)) : ∃ q ∈ p :: l, s <:+: q := by
  induction l generalizing p with
  | nil => exact ⟨p, List.mem_singleton_self p, by simpa [List.intercalate] using hs⟩
  | cons b l ih =>
    rw [intercalate_pair] at hs
    rcases h.side hs with hs | hs
    · exact ⟨p, List.mem_cons_self, hs⟩
    · obtain ⟨q, hq, hsq⟩ := ih hs
      exact ⟨q, List.mem_cons_of_mem p hq, hsq⟩

/-- A replacement takes the replaced text away and brings back none that was gone. -/
theorem not_infix_replace [BEq α] [LawfulBEq α] {s t m text : List α} (ht : t ≠ []) (hs : Apart s m)
    (h : s = t ∨ ¬ s <:+: text) : ¬ s <:+: replace t m text := by
  obtain ⟨p, l, htext, hr, hall⟩ := replace_pieces m ht text
  intro hin
  rw [hr] at hin
  obtain ⟨q, hq, hsq⟩ := hs.in_piece hin
  rcases h with rfl | h
  · exact hall q hq hsq
  · apply h
    rw [htext]
    exact hsq.trans (infix_intercalate hq)

/-- Two texts with no common character are apart. -/
theorem apart_of_disjoint {s m : List α} (hs : s ≠ []) (hm : m ≠ []) (hd : ∀ c ∈ s, c ∉ m) : Apart s m where
  notWithin h := by
    obtain ⟨c, hc⟩ := List.exists_mem_of_ne_nil s hs
    exact hd c hc (h.subset hc)
  notAround h := by
    obtain ⟨c, hc⟩ := List.exists_mem_of_ne_nil m hm
    exact hd c (h.subset hc) hc
  notBegins p hp hsuf hpre := by
    obtain ⟨c, hc⟩ := List.exists_mem_of_ne_nil p hp
    exact hd c (hpre.subset hc) (hsuf.subset hc)
  notEnds p hp hpre hsuf := by
    obtain ⟨c, hc⟩ := List.exists_mem_of_ne_nil p hp
    exact hd c (hsuf.subset hc) (hpre.subset hc)

end Substitute
