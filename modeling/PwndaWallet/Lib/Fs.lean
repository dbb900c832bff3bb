import PwndaWallet.Lib.Solo

/-!
# A directory

One directory of a case-sensitive file system, and the steps that programs take in it. Every step
can fail; a rename replaces the file it is made onto, or does nothing.
-/

namespace Tasks.Fs

/-! ## File names -/

/-- `file_stem` and `extension`: what is before and after the last dot, if something is before it. -/
def splitExtension (name : String) : Option (String × String) :=
  let rev := name.toList.reverse
  let stem := (rev.dropWhile (· ≠ '.')).tail.reverse
  if '.' ∈ rev ∧ stem ≠ [] then
    some (String.ofList stem, String.ofList (rev.takeWhile (· ≠ '.')).reverse)
  else none

/-- The list before the first dot, the dot, and the rest. -/
theorem split_first_dot {l : List Char} (h : '.' ∈ l) :
    l = l.takeWhile (· ≠ '.') ++ '.' :: (l.dropWhile (· ≠ '.')).tail := by
  induction l with
  | nil => cases h
  | cons c l ih =>
    by_cases hc : c = '.'
    · simp [hc]
    · have hl : '.' ∈ l := by
        rcases List.mem_cons.1 h with h | h
        · exact absurd h.symm hc
        · exact h
      simp only [List.takeWhile_cons, List.dropWhile_cons]
      simpa [hc] using ih hl

theorem of_splitExtension {name stem ext : String} (h : splitExtension name = some (stem, ext)) :
    name = stem ++ "." ++ ext := by
  unfold splitExtension at h
  dsimp only at h
  split at h
  · rename_i hc
    obtain ⟨rfl, rfl⟩ := Prod.mk.inj (Option.some.inj h)
    have hsplit := congrArg List.reverse (split_first_dot hc.1)
    rw [List.reverse_reverse] at hsplit
    apply String.toList_inj.1
    simp only [String.toList_append, String.toList_ofList]
    refine hsplit.trans ?_
    simp
  · cases h

theorem splitExtension_append {stem ext : String} (hs : stem.toList ≠ []) (he : '.' ∉ ext.toList) :
    splitExtension (stem ++ "." ++ ext) = some (stem, ext) := by
  have hrev : (stem ++ "." ++ ext).toList.reverse = ext.toList.reverse ++ '.' :: stem.toList.reverse := by
    simp
  have htake : ∀ c ∈ ext.toList.reverse, decide (c ≠ '.') = true := by
    intro c hc
    rw [decide_eq_true_iff]
    rintro rfl
    exact he (by simpa using hc)
  unfold splitExtension
  simp only [hrev, List.takeWhile_append_of_pos htake, List.dropWhile_append_of_pos htake]
  simp [hs]

/-! ## Directories -/

/-- What a name is in the directory: a file, or something that cannot be read or replaced as one. -/
inductive Entry (β : Type) where
  | file (content : β)
  | folder

abbrev Dir (β : Type) := String → Option (Entry β)

namespace Dir

variable {β : Type}

def put (d : Dir β) (name : String) (e : Entry β) : Dir β := fun n => if n = name then some e else d n

def erase (d : Dir β) (name : String) : Dir β := fun n => if n = name then none else d n

@[simp] theorem put_self (d : Dir β) (n : String) (e : Entry β) : d.put n e n = some e := by simp [put]

theorem put_ne (d : Dir β) {n m : String} (e : Entry β) (h : m ≠ n) : d.put n e m = d m := by
  simp [put, h]

@[simp] theorem erase_self (d : Dir β) (n : String) : d.erase n n = none := by simp [erase]

theorem erase_ne (d : Dir β) {n m : String} (h : m ≠ n) : d.erase n m = d m := by simp [erase, h]

end Dir

inductive FsError where
  | notFound
  | other (e : String)

def FsError.toString : FsError → String
  | .notFound => "entity not found"
  | .other e => e

inductive FsOp (β : Type) where
  /-- make an empty file of that name -/
  | create (name : String)
  /-- write the whole of it -/
  | write (name : String) (content : β)
  | sync (name : String)
  | rename (source target : String)
  | remove (name : String)
  | read (name : String)
  | readDir

abbrev FsOp.Ans {β : Type} : FsOp β → Type
  | .read _ => Except FsError β
  | .readDir => Except FsError (List String)
  | _ => Except FsError Unit

variable {β : Type}

/-- The listing names everything in the directory, once. -/
def Dir.Lists (d : Dir β) (names : List String) : Prop := names.Nodup ∧ ∀ n, n ∈ names ↔ d n ≠ none

/-- What a step can be answered, and what it does. `flaky` says whether a file that is there may be
impossible to read, or the directory impossible to list. -/
def FsOp.does (flaky : Prop) : (o : FsOp β) → o.Ans → Dir β → Dir β → Prop
  | .create n, .ok _, d, d' => d n ≠ some .folder ∧ ∃ empty, d' = d.put n (.file empty)
  | .create _, .error _, d, d' => d' = d
  | .write n b, .ok _, d, d' => d' = d.put n (.file b)
  -- what was written of it stays
  | .write n _, .error _, d, d' => ∃ part, d' = d.put n (.file part)
  | .sync _, _, d, d' => d' = d
  | .rename s t, .ok _, d, d' => ∃ b, d s = some (.file b) ∧ d t ≠ some .folder ∧ d' = (d.erase s).put t (.file b)
  | .rename _ _, .error _, d, d' => d' = d
  | .remove n, .ok _, d, d' => (∃ b, d n = some (.file b)) ∧ d' = d.erase n
  | .remove n, .error e, d, d' => (e = .notFound → d n = none) ∧ d' = d
  | .read n, .ok b, d, d' => d n = some (.file b) ∧ d' = d
  | .read n, .error .notFound, d, d' => d n = none ∧ d' = d
  | .read n, .error (.other _), d, d' => (flaky ∨ d n = some .folder) ∧ d' = d
  | .readDir, .ok names, d, d' => d.Lists names ∧ d' = d
  | .readDir, .error _, d, d' => flaky ∧ d' = d

/-! ## A directory that can be computed -/

/-- The files of a directory. -/
abbrev Files (β : Type) := List (String × β)

namespace Files

def dir (fs : Files β) : Dir β := fun n => (fs.lookup n).map .file

def erase (fs : Files β) (name : String) : Files β := fs.filter fun f => f.1 != name

def put (fs : Files β) (name : String) (content : β) : Files β := (name, content) :: fs.erase name

theorem lookup_cons_ne (fs : Files β) {k n : String} (c : β) (hn : n ≠ k) :
    List.lookup n ((k, c) :: fs) = List.lookup n fs := by
  rw [List.lookup_cons, beq_eq_false_iff_ne.2 hn]

theorem lookup_erase (fs : Files β) (name n : String) :
    (fs.erase name).lookup n = if n = name then none else fs.lookup n := by
  unfold erase
  induction fs with
  | nil => simp
  | cons f fs ih =>
    obtain ⟨k, c⟩ := f
    by_cases hk : k = name
    · subst hk
      rw [List.filter_cons_of_neg (by simp), ih]
      by_cases hn : n = k
      · simp [hn]
      · rw [if_neg hn, if_neg hn, lookup_cons_ne fs c hn]
    · rw [List.filter_cons_of_pos (by simpa using hk)]
      by_cases hn : n = k
      · subst hn
        simp [hk]
      · rw [lookup_cons_ne _ c hn, lookup_cons_ne fs c hn, ih]

theorem dir_erase (fs : Files β) (name : String) : (fs.erase name).dir = fs.dir.erase name := by
  funext n
  simp only [dir, Dir.erase, lookup_erase]
  split <;> rfl

theorem dir_put (fs : Files β) (name : String) (content : β) :
    (fs.put name content).dir = fs.dir.put name (.file content) := by
  funext n
  by_cases hn : n = name
  · simp [dir, put, Dir.put, hn]
  · rw [Dir.put_ne _ _ hn]
    unfold dir put
    rw [lookup_cons_ne _ content hn, lookup_erase, if_neg hn]

theorem lists_dir {fs : Files β} (h : (fs.map Prod.fst).Nodup) : fs.dir.Lists (fs.map Prod.fst) := by
  refine ⟨h, fun n => ?_⟩
  simp [dir]

end Files

/-- A step that works. -/
def FsOp.perform [Inhabited β] (fs : Files β) : (o : FsOp β) → Option (o.Ans × Files β)
  | .create n => some (.ok (), fs.put n default)
  | .write n b => some (.ok (), fs.put n b)
  | .sync _ => some (.ok (), fs)
  | .rename s t => (fs.lookup s).map fun b => (.ok (), (fs.erase s).put t b)
  | .remove n =>
    match fs.lookup n with
    | some _ => some (.ok (), fs.erase n)
    | none => some (.error .notFound, fs)
  | .read n =>
    match fs.lookup n with
    | some b => some (.ok b, fs)
    | none => some (.error .notFound, fs)
  | .readDir => if (fs.map Prod.fst).Nodup then some (.ok (fs.map Prod.fst), fs) else none

theorem Files.dir_ne_folder (fs : Files β) (n : String) : fs.dir n ≠ some .folder := by
  unfold dir
  cases fs.lookup n with
  | none => exact fun h => nomatch h
  | some b => exact fun h => nomatch h

theorem does_perform [Inhabited β] {flaky : Prop} {fs fs' : Files β} {o : FsOp β} {r : o.Ans}
    (h : o.perform fs = some (r, fs')) : o.does flaky r fs.dir fs'.dir := by
  cases o with
  | create n =>
    obtain ⟨rfl, rfl⟩ := Prod.mk.inj (Option.some.inj h)
    exact ⟨fs.dir_ne_folder n, default, Files.dir_put _ _ _⟩
  | write n b =>
    obtain ⟨rfl, rfl⟩ := Prod.mk.inj (Option.some.inj h)
    exact Files.dir_put _ _ _
  | sync n =>
    obtain ⟨rfl, rfl⟩ := Prod.mk.inj (Option.some.inj h)
    rfl
  | rename s t =>
    obtain ⟨b, hb, heq⟩ := Option.map_eq_some_iff.1 h
    obtain ⟨rfl, rfl⟩ := Prod.mk.inj heq
    refine ⟨b, by simp [Files.dir, hb], fs.dir_ne_folder t, ?_⟩
    rw [Files.dir_put, Files.dir_erase]
  | remove n =>
    dsimp only [FsOp.perform] at h
    split at h
    · rename_i b hb
      obtain ⟨rfl, rfl⟩ := Prod.mk.inj (Option.some.inj h)
      exact ⟨⟨b, by simp [Files.dir, hb]⟩, Files.dir_erase _ _⟩
    · rename_i hb
      obtain ⟨rfl, rfl⟩ := Prod.mk.inj (Option.some.inj h)
      exact ⟨fun _ => by simp [Files.dir, hb], rfl⟩
  | read n =>
    dsimp only [FsOp.perform] at h
    split at h
    · rename_i b hb
      obtain ⟨rfl, rfl⟩ := Prod.mk.inj (Option.some.inj h)
      exact ⟨by simp [Files.dir, hb], rfl⟩
    · rename_i hb
      obtain ⟨rfl, rfl⟩ := Prod.mk.inj (Option.some.inj h)
      exact ⟨by simp [Files.dir, hb], rfl⟩
  | readDir =>
    dsimp only [FsOp.perform] at h
    split at h
    · rename_i hn
      obtain ⟨rfl, rfl⟩ := Prod.mk.inj (Option.some.inj h)
      exact ⟨Files.lists_dir hn, rfl⟩
    · cases h

end Tasks.Fs
