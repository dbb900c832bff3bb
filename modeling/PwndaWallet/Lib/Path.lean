/-!
# Path texts

A path is a text that separators cut into pieces. What the pieces are depends on the system, of which there are two: a
backslash separates, or it is a character of a name. `components` is what a program sees of a path.
-/

namespace Tasks.Path

inductive Component where
  | rootDir
  | curDir
  | parentDir
  | normal (name : List Char)
deriving DecidableEq

def isSlash (c : Char) : Bool := c == '/'

def isSlashOrBackslash (c : Char) : Bool := c == '/' || c == '\\'

/-- An empty piece and `.` stand for nothing. -/
def componentOf (piece : List Char) : Option Component :=
  if piece = [] ∨ piece = ['.'] then none
  else if piece = ['.', '.'] then some .parentDir
  else some (.normal piece)

/-- What comes before the pieces: the root, or a `.` at the start. -/
def components (p : Char → Bool) (s : List Char) : List Component :=
  (if s.head?.any p then [.rootDir] else if (s.splitOnP p).head? = some ['.'] then [.curDir] else []) ++
    (s.splitOnP p).filterMap componentOf

/-- The names on the way that a path goes down. -/
def names : List Component → List (List Char) := List.filterMap fun
  | .normal name => some name
  | _ => none

/-! ## Pieces -/

section

variable {α β : Type}

theorem splitOnP_map (f : α → β) (p : β → Bool) (s : List α) :
    (s.map f).splitOnP p = (s.splitOnP (p ∘ f)).map (List.map f) := by
  induction s with
  | nil => rfl
  | cons c s ih =>
    simp only [List.map_cons, List.splitOnP_cons_eq_if_modifyHead, ih, Function.comp]
    by_cases hc : p (f c) = true
    · simp [hc]
    · simp only [hc]
      cases s.splitOnP (p ∘ f) with
      | nil => rfl
      | cons piece pieces => rfl

/-- A piece holds no separator. -/
theorem not_sep_of_mem_splitOnP {p : α → Bool} {s piece : List α} (h : piece ∈ s.splitOnP p) :
    ∀ c ∈ piece, p c = false := by
  induction s generalizing piece with
  | nil =>
    intro c hc
    simp only [List.splitOnP_nil, List.mem_singleton] at h
    subst h
    cases hc
  | cons d s ih =>
    rw [List.splitOnP_cons_eq_if_modifyHead] at h
    by_cases hd : p d = true
    · rw [if_pos hd] at h
      cases List.mem_cons.1 h with
      | inl hnil =>
        subst hnil
        intro c hc
        cases hc
      | inr hmem => exact ih hmem
    · rw [if_neg hd] at h
      cases hs : s.splitOnP p with
      | nil =>
        rw [hs] at h
        cases h
      | cons first rest =>
        rw [hs] at h ih
        cases List.mem_cons.1 h with
        | inl hfirst =>
          subst hfirst
          intro c hc
          cases List.mem_cons.1 hc with
          | inl heq => simpa [heq] using hd
          | inr hmem => exact ih List.mem_cons_self c hmem
        | inr hmem => exact ih (List.mem_cons_of_mem _ hmem)

/-- With more separators, the pieces are those of the pieces. -/
theorem splitOnP_flatMap {p q : α → Bool} (hpq : ∀ c, p c = true → q c = true) (s : List α) :
    s.splitOnP q = (s.splitOnP p).flatMap (List.splitOnP q) := by
  induction s with
  | nil => rfl
  | cons c s ih =>
    rw [List.splitOnP_cons_eq_if_modifyHead, List.splitOnP_cons_eq_if_modifyHead, ih]
    by_cases hp : p c = true
    · simp [hp, hpq c hp]
    · cases hs : s.splitOnP p with
      | nil => exact absurd hs (List.splitOnP_ne_nil p s)
      | cons first rest =>
        have hsplit : (c :: first).splitOnP q = if q c = true then [] :: first.splitOnP q
            else (first.splitOnP q).modifyHead (List.cons c) := List.splitOnP_cons_eq_if_modifyHead c first
        rw [if_neg hp, List.modifyHead_cons, List.flatMap_cons, List.flatMap_cons, hsplit]
        by_cases hq : q c = true
        · simp [hq]
        · rw [if_neg hq, if_neg hq]
          cases hf : first.splitOnP q with
          | nil => exact absurd hf (List.splitOnP_ne_nil q first)
          | cons a l => rfl

theorem splitOnP_of_not_sep {q : α → Bool} {s : List α} (h : ∀ c ∈ s, q c = false) : s.splitOnP q = [s] :=
  List.splitOnP_eq_singleton h

/-- The first piece is what comes before the first separator. -/
theorem of_head_splitOnP {q : α → Bool} {s piece : List α} (h : (s.splitOnP q).head? = some piece) :
    s = piece ∨ ∃ c rest, s = piece ++ c :: rest ∧ q c = true := by
  induction s generalizing piece with
  | nil =>
    rw [List.splitOnP_nil] at h
    exact .inl (Option.some.inj h)
  | cons c s ih =>
    rw [List.splitOnP_cons_eq_if_modifyHead] at h
    by_cases hq : q c = true
    · rw [if_pos hq] at h
      obtain rfl := Option.some.inj h
      exact .inr ⟨c, s, rfl, hq⟩
    · rw [if_neg hq] at h
      cases hs : s.splitOnP q with
      | nil => exact absurd hs (List.splitOnP_ne_nil q s)
      | cons first rest =>
        rw [hs] at h ih
        obtain rfl := Option.some.inj h
        cases ih rfl with
        | inl heq => exact .inl (congrArg (List.cons c) heq)
        | inr hmore =>
          obtain ⟨d, rest', heq, hd⟩ := hmore
          exact .inr ⟨d, rest', congrArg (List.cons c) heq, hd⟩

theorem head_splitOnP_flatMap {p q : α → Bool} (hpq : ∀ c, p c = true → q c = true) {s piece : List α}
    (h : (s.splitOnP p).head? = some piece) : (piece.splitOnP q).head? = (s.splitOnP q).head? := by
  rw [splitOnP_flatMap hpq s]
  cases hs : s.splitOnP p with
  | nil => exact absurd hs (List.splitOnP_ne_nil p s)
  | cons first rest =>
    rw [hs] at h
    obtain rfl := Option.some.inj h
    cases hf : first.splitOnP q with
    | nil => exact absurd hf (List.splitOnP_ne_nil q first)
    | cons a l => simp [hf]

end

/-! ## Names -/

section

variable {p q : Char → Bool} {s : List Char}

@[simp] theorem componentOf_nil : componentOf [] = none := rfl

theorem componentOf_parentDir : componentOf ['.', '.'] = some .parentDir := rfl

theorem componentOf_normal {piece : List Char} (hnil : piece ≠ []) (hcur : piece ≠ ['.']) (hparent : piece ≠ ['.', '.']) :
    componentOf piece = some (.normal piece) := by
  simp [componentOf, hnil, hcur, hparent]

/-- A piece is a name, unless it stands for nothing or for the parent. -/
theorem componentOf_cases (piece : List Char) : componentOf piece = none ∨ piece = ['.', '.'] ∨
    componentOf piece = some (.normal piece) := by
  by_cases hparent : piece = ['.', '.']
  · exact .inr (.inl hparent)
  by_cases hnothing : piece = [] ∨ piece = ['.']
  · exact .inl (by simp [componentOf, hnothing])
  · rw [not_or] at hnothing
    exact .inr (.inr (componentOf_normal hnothing.1 hnothing.2 hparent))

theorem filterMap_componentOf {l : List (List Char)} (h : ['.', '.'] ∉ l) :
    l.filterMap componentOf = (l.filter fun piece => (componentOf piece).isSome).map .normal := by
  induction l with
  | nil => rfl
  | cons piece l ih =>
    rw [List.mem_cons, not_or] at h
    have hl := ih h.2
    cases componentOf_cases piece with
    | inl hnone => simp [hnone, hl]
    | inr hmore =>
      cases hmore with
      | inl hparent => exact absurd hparent.symm h.1
      | inr hsome => simp [hsome, hl]

/-- A path that begins with no separator and no `.`. -/
theorem components_of_plain (hhead : s.head?.any p = false) (hcur : (s.splitOnP p).head? ≠ some ['.']) :
    components p s = (s.splitOnP p).filterMap componentOf := by
  simp [components, hhead, hcur]

/-- What it means that a path begins with a name. -/
theorem of_components_normal {first : List Char} {rest : List Component} (h : components q s = .normal first :: rest) :
    s.head?.any q = false ∧ (s.splitOnP q).head? = some first ∧ componentOf first = some (.normal first) ∧
      (s.splitOnP q).filterMap componentOf = .normal first :: rest := by
  by_cases hhead : s.head?.any q = true
  · rw [components, if_pos hhead] at h
    cases h
  by_cases hcur : (s.splitOnP q).head? = some ['.']
  · rw [components, if_neg hhead, if_pos hcur] at h
    cases h
  rw [Bool.not_eq_true] at hhead
  rw [components_of_plain hhead hcur] at h
  refine ⟨hhead, ?_⟩
  cases hs : s.splitOnP q with
  | nil => exact absurd hs (List.splitOnP_ne_nil q s)
  | cons piece pieces =>
    rw [hs] at h hcur
    have hnil : piece ≠ [] := by
      intro hpiece
      subst hpiece
      cases s with
      | nil =>
        rw [List.splitOnP_nil] at hs
        cases hs
        cases h
      | cons c s =>
        have hc : q c = false := by simpa using hhead
        rw [List.splitOnP_cons_eq_if_modifyHead, hc] at hs
        cases ht : s.splitOnP q with
        | nil => exact absurd ht (List.splitOnP_ne_nil q s)
        | cons a l =>
          rw [ht] at hs
          cases hs
    have hdot : piece ≠ ['.'] := fun hpiece => hcur (congrArg some hpiece)
    by_cases hparent : piece = ['.', '.']
    · subst hparent
      cases h
    · have hnormal := componentOf_normal hnil hdot hparent
      rw [List.filterMap_cons_some hnormal] at h
      cases h
      exact ⟨rfl, hnormal, List.filterMap_cons_some hnormal⟩

/-- A path that starts with a name and in which no piece is the parent, read with fewer separators: it goes down, and
its first name starts with the other one. -/
theorem components_of_fewer (hpq : ∀ c, p c = true → q c = true) (hdot : q '.' = false) {first : List Char}
    {rest : List Component} (h : components q s = .normal first :: rest) (hparent : .parentDir ∉ rest) :
    ∃ first' rest', components p s = .normal first' :: List.map .normal rest' ∧
      (first' = first ∨ ∃ c more, first' = first ++ c :: more ∧ q c = true ∧ p c = false) := by
  obtain ⟨hhead, hfirst, hnormal, hpieces⟩ := of_components_normal h
  have hnil : first ≠ [] := by
    intro heq
    subst heq
    cases hnormal
  have hcur : first ≠ ['.'] := by
    intro heq
    subst heq
    cases hnormal
  have hnone : ['.', '.'] ∉ s.splitOnP p := by
    intro hmem
    have hsplit : ['.', '.'].splitOnP q = [['.', '.']] := splitOnP_of_not_sep (by simp [hdot])
    have hfine : ['.', '.'] ∈ s.splitOnP q := by
      rw [splitOnP_flatMap hpq, List.mem_flatMap]
      exact ⟨_, hmem, by simp [hsplit]⟩
    have hfound : Component.parentDir ∈ (s.splitOnP q).filterMap componentOf :=
      List.mem_filterMap.2 ⟨_, hfine, componentOf_parentDir⟩
    rw [hpieces] at hfound
    cases List.mem_cons.1 hfound with
    | inl heq => cases heq
    | inr hmem => exact hparent hmem
  have hheadp : s.head?.any p = false := by
    cases s with
    | nil => rfl
    | cons c s =>
      have hc : q c = false := by simpa using hhead
      cases hp : p c with
      | false => simpa using hp
      | true =>
        rw [hpq c hp] at hc
        cases hc
  cases hs : s.splitOnP p with
  | nil => exact absurd hs (List.splitOnP_ne_nil p s)
  | cons piece pieces =>
    rw [hs] at hnone
    rw [List.mem_cons, not_or] at hnone
    have hkept : ∀ c ∈ piece, p c = false := not_sep_of_mem_splitOnP (s := s) (by simp [hs])
    have hstart : piece = first ∨ ∃ c more, piece = first ++ c :: more ∧ q c = true ∧ p c = false := by
      have hhead : (piece.splitOnP q).head? = some first := by
        rw [head_splitOnP_flatMap hpq (s := s) (by rw [hs]; rfl), hfirst]
      cases of_head_splitOnP hhead with
      | inl heq => exact .inl heq
      | inr hmore =>
        obtain ⟨c, more, heq, hc⟩ := hmore
        exact .inr ⟨c, more, heq, hc, hkept c (by simp [heq])⟩
    have hlong : piece ≠ [] ∧ piece ≠ ['.'] := by
      cases hstart with
      | inl heq => exact ⟨heq ▸ hnil, heq ▸ hcur⟩
      | inr hmore =>
        obtain ⟨c, more, rfl, -⟩ := hmore
        refine ⟨by simp, fun heq => hnil ?_⟩
        cases first with
        | nil => rfl
        | cons d first => simp at heq
    have hpiece := componentOf_normal hlong.1 hlong.2 (Ne.symm hnone.1)
    refine ⟨piece, pieces.filter fun piece => (componentOf piece).isSome, ?_, hstart⟩
    rw [components_of_plain hheadp (by simpa [hs] using hlong.2), hs, List.filterMap_cons_some hpiece,
      filterMap_componentOf hnone.2]

end

end Tasks.Path

/-!
## A tree of files

The files and folders below one folder, by their paths, and what a program leaves as it was.
-/

namespace Tasks.Tree

abbrev TreePath := List String

inductive Node (β : Type) where
  | file (content : β)
  | folder

abbrev FileTree (β : Type) := TreePath → Option (Node β)

section

variable {β : Type}

def FileTree.put (t : FileTree β) (p : TreePath) (n : Node β) : FileTree β := fun q => if q = p then some n else t q

def FileTree.erase (t : FileTree β) (p : TreePath) : FileTree β := fun q => if q = p then none else t q

@[simp] theorem FileTree.put_self (t : FileTree β) (p : TreePath) (n : Node β) : t.put p n p = some n := by simp [put]

theorem FileTree.put_ne (t : FileTree β) {p q : TreePath} (n : Node β) (h : q ≠ p) : t.put p n q = t q := by simp [put, h]

@[simp] theorem FileTree.erase_self (t : FileTree β) (p : TreePath) : t.erase p p = none := by simp [erase]

theorem FileTree.erase_ne (t : FileTree β) {p q : TreePath} (h : q ≠ p) : t.erase p q = t q := by simp [erase, h]

/-- Nothing has changed but on the paths of `S`. -/
def Frame (S : TreePath → Prop) (t t' : FileTree β) : Prop := ∀ p, ¬ S p → t' p = t p

variable {S S' : TreePath → Prop} {t t' t'' : FileTree β}

theorem Frame.refl (S : TreePath → Prop) (t : FileTree β) : Frame S t t := fun _ _ => rfl

theorem Frame.trans (h : Frame S t t') (h' : Frame S t' t'') : Frame S t t'' :=
  fun p hp => (h' p hp).trans (h p hp)

theorem Frame.mono (hS : ∀ p, S p → S' p) (h : Frame S t t') : Frame S' t t' :=
  fun p hp => h p fun hs => hp (hS p hs)

theorem Frame.put {p : TreePath} (n : Node β) (hp : S p) : Frame S t (t.put p n) :=
  fun _ hq => t.put_ne n fun heq => hq (heq ▸ hp)

theorem Frame.erase {p : TreePath} (hp : S p) : Frame S t (t.erase p) :=
  fun _ hq => t.erase_ne fun heq => hq (heq ▸ hp)

end

end Tasks.Tree
