import PwndaWallet.Lib.Result
import PwndaWallet.Snapshot.Restore

/-!
# What a restore leaves behind

A restore that succeeds has put the files of a signed archive where no chain was; one that fails has written nothing
but its own part files, unless unpacking a verified archive is what failed.
-/

namespace Snapshot

open Rust Tasks Tasks.Path Tasks.Tree Wire

abbrev History := List (Ev SnapOp.Ans)

abbrev State := FileTree Bytes × History

/-! ## Paths -/

/-- The name of a download that is under way. -/
def Part (p : TreePath) : Prop := ∃ name, p = [name ++ ".part"]

/-- The name is that of the chain's folder, or (where a backslash is a character) starts with it and a backslash. -/
def IsChainName (name : String) : Prop :=
  ∃ folder ∈ ["blocks", "chainstate"], name = folder ∨ ∃ more, name = folder ++ "\\" ++ more

/-- A path that a chain's archive may write. -/
def InChain (p : TreePath) : Prop := ∃ first rest, p = particlDir ++ first :: rest ∧ IsChainName first

/-- A folder that was not there: the data directory or the daemon's. -/
def Made (t : FileTree Bytes) (p : TreePath) : Prop := p <+: particlDir ∧ t p = none

theorem not_part_of_below {p : TreePath} (hp : p <+: particlDir) : ¬ Part p := by
  intro hpart
  obtain ⟨name, rfl⟩ := hpart
  have hname : name ++ ".part" = "particl" := (List.cons_prefix_cons.1 hp).1
  have hend : (".part".toList).isSuffixOf "particl".toList = true := by
    rw [← hname, String.toList_append]
    exact List.isSuffixOf_iff_suffix.2 (List.suffix_append _ _)
  exact absurd hend (by decide)

theorem not_part_of_inChain {p : TreePath} (hp : InChain p) : ¬ Part p := by
  intro hpart
  obtain ⟨first, rest, rfl, -⟩ := hp
  obtain ⟨name, hname⟩ := hpart
  exact absurd (congrArg List.length hname) (by simp [particlDir])

theorem prefix_particlDir {p : TreePath} : p <+: particlDir ↔ p = [] ∨ p = particlDir := by
  constructor
  · intro hp
    cases p with
    | nil => exact .inl rfl
    | cons a p =>
      obtain ⟨rfl, hrest⟩ := List.cons_prefix_cons.1 hp
      rw [List.prefix_nil.1 hrest]
      exact .inr rfl
  · intro hp
    cases hp with
    | inl heq => exact heq ▸ List.nil_prefix
    | inr heq => exact heq ▸ List.prefix_rfl

/-! ## Entries -/

theorem isSlash_dot : isSlash '.' = false := rfl

theorem isSlashOrBackslash_of_isSlash (c : Char) (h : isSlash c = true) : isSlashOrBackslash c = true := by
  simp only [isSlash, isSlashOrBackslash] at h ⊢
  simp [h]

theorem isSlash_forward (c : Char) : isSlash (if c = '\\' then '/' else c) = isSlashOrBackslash c := by
  by_cases hc : c = '\\'
  · simp [hc, isSlash, isSlashOrBackslash]
  · simp [hc, isSlash, isSlashOrBackslash]

/-- The pieces that are inspected are those of both separators. -/
theorem splitOnP_forward (s : List Char) : (forward s).splitOnP isSlash = s.splitOnP isSlashOrBackslash := by
  have hcomp : (isSlash ∘ fun c => if c = '\\' then '/' else c) = isSlashOrBackslash := funext isSlash_forward
  rw [forward, splitOnP_map, hcomp]
  refine (List.map_congr_left fun piece hpiece => ?_).trans (List.map_id _)
  refine (List.map_congr_left fun c hc => ?_).trans (List.map_id _)
  have hsep := not_sep_of_mem_splitOnP hpiece c hc
  have hne : c ≠ '\\' := by
    intro heq
    subst heq
    cases hsep
  simp [hne]

theorem components_forward (s : List Char) : components isSlash (forward s) = components isSlashOrBackslash s := by
  rw [components, components, splitOnP_forward]
  cases s with
  | nil => rfl
  | cons c s =>
    have hhead : (forward (c :: s)).head?.any isSlash = (c :: s).head?.any isSlashOrBackslash := isSlash_forward c
    rw [hhead]

/-- The separators of the system: of the two that are inspected, the first or both. -/
def IsSystem (isSep : Char → Bool) : Prop := isSep = isSlash ∨ isSep = isSlashOrBackslash

theorem IsSystem.fewer {isSep : Char → Bool} (h : IsSystem isSep) (c : Char) (hc : isSep c = true) :
    isSlashOrBackslash c = true := by
  cases h with
  | inl heq =>
    subst heq
    exact isSlashOrBackslash_of_isSlash c hc
  | inr heq =>
    subst heq
    exact hc

theorem isSep_slash {isSep : Char → Bool} (h : IsSystem isSep) : isSep '/' = true := by
  cases h with
  | inl heq => exact heq ▸ rfl
  | inr heq => exact heq ▸ rfl

/-- A path that passes the inspection goes down from the chain's folder, on either system. -/
theorem components_of_saneEntry {isSep : Char → Bool} (hsys : IsSystem isSep) {s : List Char}
    (hs : saneEntry (forward s) = true) :
    ∃ first rest, components isSep s = .normal first :: List.map .normal rest ∧ IsChainName (String.ofList first) := by
  rw [saneEntry, components_forward] at hs
  by_cases hbad : ((components isSlashOrBackslash s).contains .rootDir ||
      (components isSlashOrBackslash s).contains .parentDir) = true
  · rw [if_pos hbad] at hs
    cases hs
  rw [if_neg hbad] at hs
  rw [Bool.or_eq_true, not_or] at hbad
  cases hc : components isSlashOrBackslash s with
  | nil =>
    rw [hc] at hs
    cases hs
  | cons c rest =>
    rw [hc] at hs hbad
    cases c with
    | normal folder =>
      have hparent : Component.parentDir ∉ rest := fun hmem => hbad.2 (by simp [hmem])
      obtain ⟨first, rest', hcomponents, hfirst⟩ := components_of_fewer hsys.fewer rfl hc hparent
      refine ⟨first, rest', hcomponents, ?_⟩
      have hfolder : folder = "blocks".toList ∨ folder = "chainstate".toList := by simpa using hs
      have hname : String.ofList folder ∈ ["blocks", "chainstate"] := by
        cases hfolder with
        | inl heq => simp [heq]
        | inr heq => simp [heq]
      refine ⟨String.ofList folder, hname, ?_⟩
      cases hfirst with
      | inl heq => exact .inl (congrArg String.ofList heq)
      | inr hmore =>
        obtain ⟨c, more, rfl, hsep, hkept⟩ := hmore
        have hslash : c ≠ '/' := by
          intro heq
          subst heq
          rw [isSep_slash hsys] at hkept
          cases hkept
        have hback : c = '\\' := by simpa [isSlashOrBackslash, hslash] using hsep
        refine .inr ⟨String.ofList more, ?_⟩
        rw [hback, ← String.toList_inj]
        simp
    | _ => cases hs

theorem names_normal (l : List (List Char)) : names (List.map .normal l) = l := by
  rw [names, List.filterMap_map]
  exact List.filterMap_some

section

variable {env : Host}

theorem targetOf_of_saneEntry (hsys : IsSystem env.isSep) {path : String} (hs : saneEntry (forward path.toList) = true) :
    ∃ first rest, targetOf env particlDir path = particlDir ++ first :: rest ∧ IsChainName first := by
  obtain ⟨first, rest, hcomponents, hname⟩ := components_of_saneEntry hsys hs
  refine ⟨String.ofList first, rest.map String.ofList, ?_, hname⟩
  rw [targetOf, hcomponents, ← List.map_cons, names_normal, List.map_cons]

/-- Every entry is one that the inspection lets through. -/
def AllSane (es : List TarEntry) : Prop := ∀ e ∈ es, saneEntry (forward e.path.toList) = true

theorem inChain_targetOf (hsys : IsSystem env.isSep) {es : List TarEntry} (hes : AllSane es) {e : TarEntry}
    (he : e ∈ es) : InChain (targetOf env particlDir e.path) := by
  obtain ⟨first, rest, heq, hname⟩ := targetOf_of_saneEntry hsys (hes e he)
  exact ⟨first, rest, heq, hname⟩

theorem inChain_of_reaches (hsys : IsSystem env.isSep) {es : List TarEntry} (hes : AllSane es) {p : TreePath}
    (hp : Reaches env particlDir es p) : InChain p := by
  obtain ⟨e, he, q, hq, hbelow, rfl⟩ := hp
  obtain ⟨first, rest, heq, hname⟩ := targetOf_of_saneEntry hsys (hes e he)
  rw [heq, List.prefix_append_right_inj] at hbelow
  cases q with
  | nil => exact absurd rfl hq
  | cons a q =>
    obtain ⟨rfl, -⟩ := List.cons_prefix_cons.1 hbelow
    exact ⟨a, q, rfl, hname⟩

/-! ## What is kept -/

/-- Nothing has changed but part files, and folders that were not there. -/
def Kept (t₀ t : FileTree Bytes) : Prop := Frame (fun p => Part p ∨ Made t₀ p) t₀ t

/-- Nor what the entries reach. -/
def KeptBut (env : Host) (es : List TarEntry) (t₀ t : FileTree Bytes) : Prop :=
  Frame (fun p => Part p ∨ Made t₀ p ∨ Reaches env particlDir es p) t₀ t

variable {t₀ t t' : FileTree Bytes}

theorem Kept.refl (t : FileTree Bytes) : Kept t t := Frame.refl _ t

theorem Kept.part {S : TreePath → Prop} (hk : Kept t₀ t) (hf : Frame S t t') (hS : ∀ p, S p → Part p) : Kept t₀ t' :=
  Frame.trans hk (hf.mono fun p hp => .inl (hS p hp))

/-- Folders are made where there are none. -/
theorem Kept.createDirs {p : TreePath} (hk : Kept t₀ t) (hp : p <+: particlDir)
    (hf : Frame (fun q => q <+: p ∧ t q = none) t t') : Kept t₀ t' := by
  refine Frame.trans hk (hf.mono fun q hq => .inr ?_)
  have hbelow := hq.1.trans hp
  refine ⟨hbelow, ?_⟩
  by_cases hmade : Made t₀ q
  · exact hmade.2
  · rw [← hk q fun hbad => ?_]
    · exact hq.2
    · cases hbad with
      | inl hpart => exact not_part_of_below hbelow hpart
      | inr h => exact hmade h

theorem KeptBut.part {S : TreePath → Prop} {es : List TarEntry} (hk : KeptBut env es t₀ t) (hf : Frame S t t')
    (hS : ∀ p, S p → Part p) : KeptBut env es t₀ t' :=
  Frame.trans hk (hf.mono fun p hp => .inl (hS p hp))

theorem Kept.reaches {es : List TarEntry} (hk : Kept t₀ t) (hf : Frame (Reaches env particlDir es) t t') :
    KeptBut env es t₀ t' :=
  Frame.trans (hk.mono fun _ hp => hp.elim .inl fun hmade => .inr (.inl hmade)) (hf.mono fun _ hp => .inr (.inr hp))

/-! ## What is left lying about -/

/-- The download broke off. -/
def Broken (tr : History) : Prop :=
  (∃ e, (⟨.chunk, some (.error e)⟩ : Ev SnapOp.Ans) ∈ tr) ∨
    ∃ p b e, (⟨.append p b, .error e⟩ : Ev SnapOp.Ans) ∈ tr

/-- A file could not be removed. -/
def Stuck (p : TreePath) (tr : History) : Prop := ∃ e, (⟨.remove p, .error e⟩ : Ev SnapOp.Ans) ∈ tr

/-- Off `X`, a part file is as it was, or gone, or could not be removed, or it is of a download that broke off. -/
def Tidy (X : TreePath → Prop) (t₀ : FileTree Bytes) (s : State) : Prop :=
  ∀ p, Part p → ¬ X p → s.1 p = t₀ p ∨ s.1 p = none ∨ Stuck p s.2 ∨ Broken s.2

variable {X : TreePath → Prop} {tr : History}

theorem Broken.append (hb : Broken tr) (l : History) : Broken (tr ++ l) := by
  cases hb with
  | inl hchunk =>
    obtain ⟨e, he⟩ := hchunk
    exact .inl ⟨e, List.mem_append_left l he⟩
  | inr happend =>
    obtain ⟨p, b, e, he⟩ := happend
    exact .inr ⟨p, b, e, List.mem_append_left l he⟩

theorem Stuck.append {p : TreePath} (hs : Stuck p tr) (l : History) : Stuck p (tr ++ l) := by
  obtain ⟨e, he⟩ := hs
  exact ⟨e, List.mem_append_left l he⟩

/-- A step that changes no part file off `X`. -/
theorem Tidy.step {S : TreePath → Prop} (ht : Tidy X t₀ (t, tr)) (hf : Frame S t t')
    (hS : ∀ p, Part p → S p → X p) (e : Ev SnapOp.Ans) : Tidy X t₀ (t', tr ++ [e]) := by
  intro p hpart hX
  have hsame : t' p = t p := hf p fun hs => hX (hS p hpart hs)
  have hbefore := ht p hpart hX
  simp only [hsame]
  cases hbefore with
  | inl heq => exact .inl heq
  | inr h =>
    cases h with
    | inl hnone => exact .inr (.inl hnone)
    | inr h =>
      cases h with
      | inl hstuck => exact .inr (.inr (.inl (hstuck.append _)))
      | inr hbroken => exact .inr (.inr (.inr (hbroken.append _)))

theorem Tidy.same (ht : Tidy X t₀ (t, tr)) (e : Ev SnapOp.Ans) : Tidy X t₀ (t, tr ++ [e]) :=
  ht.step (Frame.refl (fun _ => False) t) (fun _ _ hp => hp.elim) e

/-- What is removed last is off the list. -/
theorem Tidy.remove {p : TreePath} (ht : Tidy (fun q => X q ∨ q = p) t₀ (t, tr)) {r : Except String Unit}
    (hd : SnapOp.does env (.remove p) r t t') : Tidy X t₀ (t', tr ++ [⟨.remove p, r⟩]) := by
  intro q hpart hX
  by_cases hq : q = p
  · subst hq
    cases r with
    | ok u =>
      obtain rfl := hd
      exact .inr (.inl (FileTree.erase_self t q))
    | error e => exact .inr (.inr (.inl ⟨e, by simp⟩))
  · have hstep : Tidy (fun q => X q ∨ q = p) t₀ (t', tr ++ [⟨.remove p, r⟩]) := by
      cases r with
      | ok u =>
        obtain rfl := hd
        exact ht.step (Frame.erase (S := (· = p)) rfl) (fun _ _ hp => .inr hp) _
      | error e =>
        obtain rfl := hd
        exact ht.same _
    exact hstep q hpart fun hbad => hbad.elim hX hq

theorem tidy_of_broken (hb : Broken tr) : Tidy X t₀ (t, tr) := fun _ _ _ => .inr (.inr (.inr hb))

theorem Tidy.mono {X' : TreePath → Prop} {s : State} (ht : Tidy X t₀ s) (hX : ∀ p, X p → X' p) : Tidy X' t₀ s :=
  fun p hpart hX' => ht p hpart fun h => hX' (hX p h)

theorem frame_remove {p : TreePath} {r : Except String Unit} (hd : SnapOp.does env (.remove p) r t t') :
    Frame (· = p) t t' := by
  cases r with
  | ok u =>
    obtain rfl := hd
    exact Frame.erase rfl
  | error e =>
    obtain rfl := hd
    exact Frame.refl _ t'

/-! ## The archive -/

/-- The archive is the one that was expected, it can be read, and every entry is sane. -/
structure Checked (env : Host) (expectedSha256 : String) (archive : Bytes) (es : List TarEntry) : Prop where
  hash : eqIgnoreAsciiCase (Bridge.hexEncode (env.sha256 archive)) expectedSha256 = true
  decoded : ∃ out, env.xz archive = .ok out ∧ out.length ≤ MAX_UNPACKED_BYTES ∧
    env.tar out = .ok (es.map fun e => .ok (.ok e))
  sane : AllSane es
  nonempty : es ≠ []

/-- Unpacking was tried, and failed. -/
def UnpackFailed (tr : History) : Prop := ∃ p e, (⟨.unpack p particlDir, .error e⟩ : Ev SnapOp.Ans) ∈ tr

theorem UnpackFailed.append (hu : UnpackFailed tr) (l : History) : UnpackFailed (tr ++ l) := by
  obtain ⟨p, e, he⟩ := hu
  exact ⟨p, e, List.mem_append_left l he⟩

/-- What comes of the archive. -/
def Unpacked {α : Type} (env : Host) (expectedSha256 : String) (archive : Bytes) (t₀ : FileTree Bytes) :
    Except String α → State → Prop
  | .ok _, s => ∃ es, Checked env expectedSha256 archive es ∧ KeptBut env es t₀ s.1 ∧ Holds env particlDir es s.1
  | .error _, s => Kept t₀ s.1 ∨
      ∃ es, Checked env expectedSha256 archive es ∧ KeptBut env es t₀ s.1 ∧ UnpackFailed s.2

theorem Holds.part (hsys : IsSystem env.isSep) {es : List TarEntry} (hes : AllSane es) (hh : Holds env particlDir es t)
    {S : TreePath → Prop} (hf : Frame S t t') (hS : ∀ p, S p → Part p) : Holds env particlDir es t' := by
  intro e he c hc hunique
  rw [hf _ fun hs => not_part_of_inChain (inChain_targetOf hsys hes he) (hS _ hs)]
  exact hh e he c hc hunique

/-- A part file is changed. -/
theorem Unpacked.part {α : Type} (hsys : IsSystem env.isSep) {expected : String} {archive : Bytes}
    {r : Except String α} (hu : Unpacked env expected archive t₀ r (t, tr)) {S : TreePath → Prop}
    (hf : Frame S t t') (hS : ∀ p, S p → Part p) (e : Ev SnapOp.Ans) :
    Unpacked env expected archive t₀ r (t', tr ++ [e]) := by
  cases r with
  | ok a =>
    obtain ⟨es, hc, hk, hh⟩ := hu
    exact ⟨es, hc, hk.part hf hS, hh.part hsys hc.sane hf hS⟩
  | error x =>
    cases hu with
    | inl hk => exact .inl (Kept.part hk hf hS)
    | inr h =>
      obtain ⟨es, hc, hk, hfailed⟩ := h
      exact .inr ⟨es, hc, hk.part hf hS, hfailed.append _⟩

/-- Every entry was inspected. -/
theorem inspect_ok {list : List (Except String (Except String TarEntry))} {n entries : Nat}
    (h : inspect (list.map (Except.map (Except.map TarEntry.path))) n = .ok entries) :
    ∃ es, list = es.map (fun e => .ok (.ok e)) ∧ AllSane es ∧ entries = n + es.length := by
  induction list generalizing n with
  | nil =>
    refine ⟨[], rfl, ?_, (Except.ok.inj h).symm⟩
    intro e he
    cases he
  | cons item list ih =>
    cases item with
    | error e => cases h
    | ok item =>
      cases item with
      | error e => cases h
      | ok e =>
        change inspect (.ok (.ok e.path) :: list.map (Except.map (Except.map TarEntry.path))) n = .ok entries at h
        rw [inspect] at h
        by_cases hsane : saneEntry (forward e.path.toList) = true
        · simp only [hsane] at h
          obtain ⟨es, rfl, hes, rfl⟩ := ih h
          refine ⟨e :: es, rfl, ?_, by rw [List.length_cons]; omega⟩
          intro e' he'
          cases List.mem_cons.1 he' with
          | inl heq => exact heq ▸ hsane
          | inr hmem => exact hes e' hmem
        · simp only [hsane] at h
          cases h

/-! ## Running alone -/

abbrev Alone (env : Host) : Logic SnapOp SnapOp.Ans State := Logic.solo (SnapOp.does env) fun _ _ => True

theorem safe_call_alone {α : Type} {o : SnapOp} {k : o.Ans → SnapM α} {Q : Except String α → State → Prop} :
    Safe (Alone env) (.call o k) Q (t, tr) ↔
      ∀ r t', SnapOp.does env o r t t' → Safe (Alone env) (k r) Q (t', tr ++ [⟨o, r⟩]) := by
  rw [safe_call_solo]
  simp only [true_and]

/-- No chain was there. -/
def Empty (t : FileTree Bytes) : Prop := t blocks = none ∧ t chainstate = none

theorem safe_mayRestoreInto : Safe (Alone env) mayRestoreInto
    (fun r s => s.1 = t ∧ tr <+: s.2 ∧ ∀ u, r = .ok u → Empty t) (t, tr) := by
  rw [mayRestoreInto]
  refine safe_call_alone.2 fun there t' hd => ?_
  obtain ⟨hblocks, rfl⟩ := hd
  refine Safe.ite (fun _ => ?_) fun hno => ?_
  · exact safe_fail.2 ⟨rfl, List.prefix_append _ _, fun u hu => by cases hu⟩
  · refine safe_call_alone.2 fun there' t'' hd => ?_
    obtain ⟨hchainstate, rfl⟩ := hd
    have hgrown : tr <+: tr ++ [⟨.exists_ blocks, there⟩] ++ [⟨.exists_ chainstate, there'⟩] :=
      (List.prefix_append _ _).trans (List.prefix_append _ _)
    refine Safe.ite (fun _ => ?_) fun hno' => ?_
    · exact safe_fail.2 ⟨rfl, hgrown, fun u hu => by cases hu⟩
    · refine safe_ret.2 ⟨rfl, hgrown, fun _ _ => ⟨?_, ?_⟩⟩
      · simpa [hblocks] using hno
      · simpa [hchainstate] using hno'

/-- The manifest was served with a signature of its bytes. -/
def Served (env : Host) (tr : History) (m : SnapshotManifest) : Prop :=
  ∃ response sig body, (⟨.getManifest, .ok response⟩ : Ev SnapOp.Ans) ∈ tr ∧ response.text = .ok body ∧
    (⟨.getSignature, sig⟩ : Ev SnapOp.Ans) ∈ tr ∧
    checkSignature env body.toUTF8.toList (signatureOf sig) = .ok () ∧ env.parse body = .ok m

theorem Served.append {m : SnapshotManifest} (hs : Served env tr m) {tr' : History} (hg : tr <+: tr') :
    Served env tr' m := by
  obtain ⟨response, sig, body, hmanifest, htext, hsig, hcheck, hparse⟩ := hs
  exact ⟨response, sig, body, hg.subset hmanifest, htext, hg.subset hsig, hcheck, hparse⟩

theorem safe_fetchManifest (baseUrl : String) : Safe (Alone env) (fetchManifest env baseUrl)
    (fun r s => s.1 = t ∧ ∀ m, r = .ok m → Served env s.2 m) (t, tr) := by
  rw [fetchManifest]
  refine safe_call_alone.2 fun built t₁ hd => ?_
  obtain rfl : t₁ = t := hd
  cases built with
  | error e => exact safe_fail.2 ⟨rfl, fun m hm => by cases hm⟩
  | ok u =>
    refine safe_call_alone.2 fun answered t₂ hd => ?_
    obtain rfl : t₂ = t₁ := hd
    cases answered with
    | error e => exact safe_fail.2 ⟨rfl, fun m hm => by cases hm⟩
    | ok response =>
      refine Safe.ite (fun _ => safe_fail.2 ⟨rfl, fun m hm => by cases hm⟩) fun _ => ?_
      refine Safe.ite (fun _ => safe_fail.2 ⟨rfl, fun m hm => by cases hm⟩) fun _ => ?_
      cases htext : response.text with
      | error e => exact safe_fail.2 ⟨rfl, fun m hm => by cases hm⟩
      | ok body =>
        refine safe_call_alone.2 fun sig t₃ hd => ?_
        obtain rfl : t₃ = t₂ := hd
        cases hcheck : checkSignature env body.toUTF8.toList (signatureOf sig) with
        | error e => exact safe_fail.2 ⟨rfl, fun m hm => by cases hm⟩
        | ok _ =>
          refine Safe.ofExcept ⟨rfl, fun m hm => ?_⟩
          exact ⟨response, sig, body, by simp, htext, by simp, hcheck, ok_of_mapError hm⟩

/-! ## The download -/

/-- What a download leaves. -/
def Downloaded (env : Host) (m : SnapshotManifest) (dest : TreePath) (t₀ : FileTree Bytes) :
    Except String String → State → Prop
  | .ok hash, s => Kept t₀ s.1 ∧ Tidy (· = dest) t₀ s ∧ ∃ archive, s.1 dest = some (.file archive) ∧
      hash = Bridge.hexEncode (env.sha256 archive) ∧ archive.length ≤ m.archive.size
  | .error _, s => Kept t₀ s.1 ∧ Tidy (fun _ => False) t₀ s

theorem safe_downloadStream (m : SnapshotManifest) {dest : TreePath} (hdest : Part dest) (chunks : Nat)
    {hashed : Bytes} (hk : Kept t₀ t) (ht : Tidy (· = dest) t₀ (t, tr)) (hfile : t dest = some (.file hashed))
    (hsize : hashed.length ≤ m.archive.size) :
    Safe (Alone env) (downloadStream env m dest chunks hashed) (Downloaded env m dest t₀) (t, tr) := by
  have hown : ∀ p, p = dest → Part p := fun p hp => hp ▸ hdest
  induction chunks generalizing t tr hashed with
  | zero => exact safe_cut.2 trivial
  | succ chunks ih =>
    rw [downloadStream]
    refine safe_call_alone.2 fun chunk t₁ hd => ?_
    obtain rfl : t₁ = t := hd
    cases chunk with
    | none => exact safe_ret.2 ⟨hk, ht.same _, hashed, hfile, rfl, hsize⟩
    | some chunk =>
      cases chunk with
      | error e => exact safe_fail.2 ⟨hk, tidy_of_broken (.inl ⟨e, by simp⟩)⟩
      | ok chunk =>
        refine Safe.ite (fun _ => ?_) fun hfits => ?_
        · refine safe_call_alone.2 fun removed t₂ hd => ?_
          refine safe_fail.2 ⟨hk.part (frame_remove hd) hown, ?_⟩
          refine Tidy.remove (Tidy.mono (ht.same _) fun p hp => .inr hp) hd
        · refine safe_call_alone.2 fun written t₂ hd => ?_
          cases written with
          | error e =>
            have hf : Frame (· = dest) t₁ t₂ := hd
            exact safe_fail.2 ⟨hk.part hf hown, tidy_of_broken (.inr ⟨dest, chunk, e, by simp⟩)⟩
          | ok u =>
            obtain ⟨old, hold, rfl⟩ := hd
            rw [hfile] at hold
            cases hold
            have hf : Frame (· = dest) t₁ (t₁.put dest (.file (hashed ++ chunk))) := Frame.put _ rfl
            refine ih (hk.part hf hown) ((ht.same _).step hf (fun p _ hp => hp) _) (FileTree.put_self _ _ _) ?_
            rw [List.length_append]
            omega

theorem safe_downloadArchive (baseUrl : String) (m : SnapshotManifest) {dest : TreePath} (hdest : Part dest)
    (chunks : Nat) (hk : Kept t₀ t) (ht : Tidy (fun _ => False) t₀ (t, tr)) :
    Safe (Alone env) (downloadArchive env baseUrl m dest chunks) (Downloaded env m dest t₀) (t, tr) := by
  rw [downloadArchive]
  refine Safe.ite (fun _ => safe_fail.2 ⟨hk, ht⟩) fun _ => ?_
  refine safe_call_alone.2 fun built t₁ hd => ?_
  obtain rfl : t₁ = t := hd
  cases built with
  | error e => exact safe_fail.2 ⟨hk, ht.same _⟩
  | ok u =>
    refine safe_call_alone.2 fun answered t₂ hd => ?_
    obtain rfl : t₂ = t₁ := hd
    have ht := (ht.same ⟨.httpClient, .ok u⟩).same ⟨.getArchive m.archive.name, answered⟩
    cases answered with
    | error e => exact safe_fail.2 ⟨hk, ht⟩
    | ok status =>
      refine Safe.ite (fun _ => safe_fail.2 ⟨hk, ht⟩) fun _ => ?_
      refine safe_call_alone.2 fun made t₃ hd => ?_
      have hroof : dest.dropLast <+: particlDir := by
        obtain ⟨name, rfl⟩ := hdest
        exact List.nil_prefix
      have hf : Frame (fun q => q <+: dest.dropLast ∧ t₂ q = none) t₂ t₃ := hd
      have hk := hk.createDirs hroof hf
      have ht := ht.step hf (fun p hpart hp => not_part_of_below (hp.1.trans hroof) hpart)
        ⟨.createDirs dest.dropLast, made⟩
      cases made with
      | error e => exact safe_fail.2 ⟨hk, ht⟩
      | ok u =>
        refine safe_call_alone.2 fun created t₄ hd => ?_
        cases created with
        | error e =>
          obtain rfl : t₄ = t₃ := hd
          exact safe_fail.2 ⟨hk, ht.same _⟩
        | ok u =>
          obtain rfl : t₄ = t₃.put dest (.file []) := hd
          have hf : Frame (· = dest) t₃ (t₃.put dest (.file [])) := Frame.put _ rfl
          have hown : ∀ p, p = dest → Part p := fun p hp => hp ▸ hdest
          have ht : Tidy (· = dest) t₀ (t₃, _) := ht.mono fun p hp => hp.elim
          exact safe_downloadStream m hdest chunks (hk.part hf hown) (ht.step hf (fun p _ hp => hp) _)
            (FileTree.put_self _ _ _) (Nat.zero_le _)

/-! ## Unpacking -/

theorem Tidy.grow (ht : Tidy X t₀ (t, tr)) {tr' : History} (hg : tr <+: tr') : Tidy X t₀ (t, tr') := by
  obtain ⟨more, rfl⟩ := hg
  intro p hpart hX
  cases ht p hpart hX with
  | inl heq => exact .inl heq
  | inr h =>
    cases h with
    | inl hnone => exact .inr (.inl hnone)
    | inr h =>
      cases h with
      | inl hstuck => exact .inr (.inr (.inl (hstuck.append _)))
      | inr hbroken => exact .inr (.inr (.inr (hbroken.append _)))

section

variable (hsys : IsSystem env.isSep) {source tarPath : TreePath} (htar : Part tarPath) (hne : tarPath ≠ source)
  (expected : String) {archive : Bytes} (hk : Kept t₀ t) (hfile : t source = some (.file archive))

include hsys htar hk in
theorem safe_place {out : Bytes} {es : List TarEntry} (entries : Nat) (hout : t tarPath = some (.file out))
    (htarred : env.tar out = .ok (es.map fun e => .ok (.ok e))) (hchecked : Checked env expected archive es)
    (ht : Tidy X t₀ (t, tr)) : Safe (Alone env) (place env tarPath entries)
      (fun r s => Unpacked env expected archive t₀ r s ∧ Tidy X t₀ s) (t, tr) := by
  rw [place]
  refine safe_call_alone.2 fun made t₁ hd => ?_
  have hf : Frame (fun q => q <+: particlDir ∧ t q = none) t t₁ := hd
  have hk := hk.createDirs List.prefix_rfl hf
  have ht := ht.step hf (fun p hpart hp => absurd hpart (not_part_of_below hp.1)) ⟨.createDirs particlDir, made⟩
  cases made with
  | error e => exact safe_fail.2 ⟨.inl hk, ht⟩
  | ok u =>
    have hthere : t₁ tarPath = some (.file out) := by
      rw [hf tarPath fun hp => not_part_of_below hp.1 htar, hout]
    refine safe_call_alone.2 fun placed t₂ hd => ?_
    cases hd with
    | inl hno =>
      obtain ⟨rfl, hno⟩ := hno
      cases placed with
      | ok u => cases hno
      | error e =>
        cases e with
        | openFile e => exact safe_fail.2 ⟨.inl hk, ht.same _⟩
        | archive e => exact safe_fail.2 ⟨.inl hk, ht.same _⟩
    | inr hyes =>
      obtain ⟨c, items, hc, hread, hall⟩ := hyes
      rw [hthere] at hc
      cases hc
      rw [htarred] at hread
      cases hread
      obtain ⟨hreached, hholds⟩ := hall es rfl
      have hbut := hk.reaches hreached
      have ht := ht.step hreached
        (fun p hpart hp => absurd hpart (not_part_of_inChain (inChain_of_reaches hsys hchecked.sane hp)))
        ⟨.unpack tarPath particlDir, placed⟩
      cases placed with
      | ok u => exact safe_ret.2 ⟨⟨es, hchecked, hbut, hholds rfl⟩, ht⟩
      | error e =>
        have hfailed : UnpackFailed (tr ++ [⟨.createDirs particlDir, .ok u⟩] ++
            [⟨.unpack tarPath particlDir, .error e⟩]) := ⟨tarPath, e, by simp⟩
        cases e with
        | openFile e => exact safe_fail.2 ⟨.inr ⟨es, hchecked, hbut, hfailed⟩, ht⟩
        | archive e => exact safe_fail.2 ⟨.inr ⟨es, hchecked, hbut, hfailed⟩, ht⟩

include hsys htar hk hfile in
theorem safe_unpackThrough (ht : Tidy (fun p => p = source ∨ p = tarPath) t₀ (t, tr)) :
    Safe (Alone env) (unpackThrough env source tarPath expected)
      (fun r s => Unpacked env expected archive t₀ r s ∧ Tidy (fun p => p = source ∨ p = tarPath) t₀ s) (t, tr) := by
  have hown : ∀ p, p = tarPath → Part p := fun p hp => hp ▸ htar
  rw [unpackThrough, decompressAndVerify]
  refine Safe.bind (safe_call_alone.2 fun read t₁ hd => ?_)
  cases read with
  | error e =>
    have hf : Frame (· = tarPath) t t₁ := hd
    exact safe_fail.2 ⟨.inl (hk.part hf hown), ht.step hf (fun p _ hp => .inr hp) _⟩
  | ok bytes =>
    obtain ⟨hsource, out, hout, hcap, rfl⟩ := hd
    rw [hfile] at hsource
    cases hsource
    have hf : Frame (· = tarPath) t (t.put tarPath (.file out)) := Frame.put _ rfl
    have hk := hk.part hf hown
    have ht := ht.step hf (fun p _ hp => .inr hp) ⟨.decompress source tarPath, .ok archive⟩
    refine Safe.ite (fun _ => safe_fail.2 ⟨.inl hk, ht⟩) fun hhash => ?_
    refine safe_ret.2 (safe_call_alone.2 fun listed t₂ hd => ?_)
    cases listed with
    | error e =>
      obtain rfl : t₂ = t.put tarPath (.file out) := hd
      cases e with
      | openFile e => exact safe_fail.2 ⟨.inl hk, ht.same _⟩
      | archive e => exact safe_fail.2 ⟨.inl hk, ht.same _⟩
    | ok list =>
      obtain ⟨⟨c, items, hc, htarred, rfl⟩, rfl⟩ := hd
      rw [FileTree.put_self] at hc
      cases hc
      refine Safe.ofExcept_bind (fun e _ => ⟨.inl hk, ht.same _⟩) fun entries hinspected => ?_
      obtain ⟨es, rfl, hsane, hcount⟩ := inspect_ok hinspected
      refine Safe.ite (fun _ => safe_fail.2 ⟨.inl hk, ht.same _⟩) fun hsome => ?_
      have hchecked : Checked env expected archive es := by
        refine ⟨by simpa using hhash, ⟨out, hout, hcap, htarred⟩, hsane, ?_⟩
        intro hnil
        subst hnil
        exact hsome (by simpa using hcount)
      exact safe_place hsys htar expected hk entries (FileTree.put_self _ _ _) htarred hchecked (ht.same _)

include hsys hk hfile in
theorem safe_unpackSnapshot (htar : Part (withExtension source "tar.part"))
    (hne : withExtension source "tar.part" ≠ source) (ht : Tidy (· = source) t₀ (t, tr)) :
    Safe (Alone env) (unpackSnapshot env source expected)
      (fun r s => Unpacked env expected archive t₀ r s ∧ Tidy (· = source) t₀ s) (t, tr) := by
  rw [unpackSnapshot]
  refine Safe.bind (safe_mayRestoreInto.mono fun r s hr => ?_)
  obtain ⟨t₁, tr₁⟩ := s
  obtain ⟨heq, hgrown, -⟩ := hr
  obtain rfl : t₁ = t := heq
  have ht := ht.grow hgrown
  cases r with
  | error e => exact ⟨.inl hk, ht⟩
  | ok u =>
    refine safe_call_alone.2 fun removed t₂ hd => ?_
    have hown : ∀ p, p = withExtension source "tar.part" → Part p := fun p hp => hp ▸ htar
    have hremoved := frame_remove hd
    have hfile : t₂ source = some (.file archive) := by
      rw [hremoved source fun heq => hne heq.symm, hfile]
    have ht := Tidy.remove (ht.mono fun p hp => .inl hp) hd
    refine Safe.handle ((safe_unpackThrough hsys htar expected (hk.part hremoved hown) hfile
      (ht.mono fun p hp => .inl hp)).mono fun out s hout => ?_)
    obtain ⟨t₃, tr₃⟩ := s
    obtain ⟨hunpacked, ht⟩ := hout
    refine safe_call_alone.2 fun removed t₄ hd => ?_
    exact Safe.ofExcept ⟨hunpacked.part hsys (frame_remove hd) hown _, ht.remove hd⟩

end

/-! ## The whole restore -/

/-- The manifest names a plain file. -/
def Plain (env : Host) (m : SnapshotManifest) : Prop := partPath env m = [m.archive.name ++ ".part"]

theorem Plain.part {m : SnapshotManifest} (hp : Plain env m) : Part (partPath env m) := ⟨m.archive.name, hp⟩

/-- The decompressed archive is a part file, too, and another one. -/
theorem withExtension_part (name : String) :
    ∃ stem, withExtension [name ++ ".part"] "tar.part" = [stem ++ ".tar" ++ ".part"] ∧
      stem ++ ".tar" ++ ".part" ≠ name ++ ".part" := by
  have hsuffix (s : String) : s ++ "." ++ "tar.part" = s ++ ".tar" ++ ".part" := by
    rw [← String.toList_inj]
    simp
  by_cases hname : name.toList = []
  · have hempty : name = "" := String.toList_inj.1 hname
    subst hempty
    exact ⟨".part", rfl, by decide⟩
  · have hsplit : Fs.splitExtension (name ++ "." ++ "part") = some (name, "part") :=
      Fs.splitExtension_append hname (by decide)
    have hdot : name ++ ".part" = name ++ "." ++ "part" := by
      rw [← String.toList_inj]
      simp
    refine ⟨name, ?_, ?_⟩
    · rw [withExtension]
      simp only [List.getLast?_singleton, List.dropLast_singleton, List.nil_append, hdot, hsplit, Option.map_some,
        Option.getD_some, hsuffix]
    · intro heq
      have hlength := congrArg (List.length ∘ String.toList) heq
      simp at hlength

theorem Plain.tarPath {m : SnapshotManifest} (hp : Plain env m) :
    Part (withExtension (partPath env m) "tar.part") ∧
      withExtension (partPath env m) "tar.part" ≠ partPath env m := by
  rw [Plain] at hp
  obtain ⟨stem, heq, hne⟩ := withExtension_part m.archive.name
  rw [hp, heq]
  exact ⟨⟨stem ++ ".tar", rfl⟩, fun h => hne (List.singleton_inj.1 h)⟩

/-- What comes of a manifest. -/
def RestoredFrom (env : Host) (m : SnapshotManifest) (t₀ : FileTree Bytes) : Except String String → State → Prop
  | .ok id, s => id = m.snapshotId ∧ ∃ archive es, archive.length = m.archive.size ∧
      Checked env m.archive.sha256 archive es ∧ KeptBut env es t₀ s.1 ∧ Holds env particlDir es s.1
  | .error _, s => Kept t₀ s.1 ∨ ∃ archive es, archive.length = m.archive.size ∧
      Checked env m.archive.sha256 archive es ∧ KeptBut env es t₀ s.1 ∧ UnpackFailed s.2

theorem checkArchive_ok {m : SnapshotManifest} {gotSize : Nat} {gotSha256 : String}
    (h : checkArchive m gotSize gotSha256 = .ok ()) : gotSize = m.archive.size := by
  rw [checkArchive] at h
  by_cases hsize : gotSize ≠ m.archive.size
  · rw [if_pos hsize] at h
    cases h
  · simpa using hsize

theorem safe_restoreFrom (hsys : IsSystem env.isSep) (baseUrl : String) {m : SnapshotManifest} (hplain : Plain env m)
    (chunks : Nat) (hk : Kept t₀ t) (ht : Tidy (fun _ => False) t₀ (t, tr)) :
    Safe (Alone env) (restoreFrom env baseUrl m chunks)
      (fun r s => RestoredFrom env m t₀ r s ∧ Tidy (fun _ => False) t₀ s) (t, tr) := by
  have hown : ∀ p, p = partPath env m → Part p := fun p hp => hp ▸ hplain.part
  rw [restoreFrom]
  refine Safe.bind ((safe_downloadArchive baseUrl m hplain.part chunks hk ht).mono fun r s hr => ?_)
  obtain ⟨t₁, tr₁⟩ := s
  cases r with
  | error e =>
    obtain ⟨hk, ht⟩ := hr
    exact ⟨.inl hk, ht⟩
  | ok gotHash =>
    obtain ⟨hk, ht, archive, hfile, -, hsize⟩ := hr
    refine safe_call_alone.2 fun gotSize t₂ hd => ?_
    have hmeasured : t₂ = t₁ ∧ (archive.length = gotSize.toOption.getD 0 ∨ gotSize.toOption.getD 0 = 0) := by
      cases gotSize with
      | error e => exact ⟨hd, .inr rfl⟩
      | ok n =>
        obtain ⟨⟨c, hc, rfl⟩, rfl⟩ := hd
        obtain rfl := Node.file.inj (Option.some.inj (hfile.symm.trans hc))
        exact ⟨rfl, .inl rfl⟩
    obtain ⟨rfl, hgot⟩ := hmeasured
    have ht := ht.same ⟨.metadata (partPath env m), gotSize⟩
    have hdiscard : Tidy (fun p => False ∨ p = partPath env m) t₀ _ := ht.mono fun p hp => .inr hp
    cases hchecked : checkArchive m (gotSize.toOption.getD 0) gotHash with
    | error e =>
      refine safe_call_alone.2 fun removed t₃ hd => ?_
      exact safe_fail.2 ⟨.inl (hk.part (frame_remove hd) hown), hdiscard.remove hd⟩
    | ok _ =>
      have hlength : archive.length = m.archive.size := by
        have hgotSize := checkArchive_ok hchecked
        cases hgot with
        | inl heq => rw [heq, hgotSize]
        | inr hzero => omega
      obtain ⟨htar, hne⟩ := hplain.tarPath
      refine Safe.handle ((safe_unpackSnapshot hsys m.archive.sha256 hk hfile htar hne ht).mono fun out s hout => ?_)
      obtain ⟨t₃, tr₃⟩ := s
      obtain ⟨hunpacked, ht⟩ := hout
      refine safe_call_alone.2 fun removed t₄ hd => ?_
      have ht := Tidy.remove (X := fun _ => False) (ht.mono fun p hp => .inr hp) hd
      have hunpacked := hunpacked.part hsys (frame_remove hd) hown ⟨.remove (partPath env m), removed⟩
      refine Safe.ofExcept ⟨?_, ht⟩
      cases out with
      | ok entries =>
        obtain ⟨es, hc, hbut, hholds⟩ := hunpacked
        exact ⟨rfl, archive, es, hlength, hc, hbut, hholds⟩
      | error e =>
        cases hunpacked with
        | inl hk => exact .inl hk
        | inr h =>
          obtain ⟨es, hc, hbut, hfailed⟩ := h
          exact .inr ⟨archive, es, hlength, hc, hbut, hfailed⟩

/-- What a restore comes to. -/
def Restored (env : Host) (ourParticld : String) (t₀ : FileTree Bytes) (r : Except String String) (s : State) : Prop :=
  (r.isOk = false ∧ Kept t₀ s.1) ∨
    ∃ m, Served env s.2 m ∧ checkManifest m ourParticld = .ok () ∧ Empty t₀ ∧ RestoredFrom env m t₀ r s

/-- The manifests that are published name plain files. -/
def Published (env : Host) : Prop :=
  ∀ body sig m, checkSignature env body.toUTF8.toList sig = .ok () → env.parse body = .ok m → Plain env m

theorem Published.plain (hp : Published env) {m : SnapshotManifest} (hs : Served env tr m) : Plain env m := by
  obtain ⟨response, sig, body, -, -, -, hcheck, hparse⟩ := hs
  exact hp body _ m hcheck hparse

theorem safe_restoreSnapshot (hsys : IsSystem env.isSep) (hpublished : Published env)
    (baseUrl ourParticld : String) (chunks : Nat) (t₀ : FileTree Bytes) :
    Safe (Alone env) (restoreSnapshot env baseUrl ourParticld chunks)
      (fun r s => Restored env ourParticld t₀ r s ∧ Tidy (fun _ => False) t₀ s) (t₀, []) := by
  have htidy : Tidy (fun _ => False) t₀ (t₀, []) := fun p _ _ => .inl rfl
  unfold restoreSnapshot
  refine Safe.bind (safe_mayRestoreInto.mono fun r s hr => ?_)
  obtain ⟨t, tr⟩ := s
  obtain ⟨heq, hgrown, hempty⟩ := hr
  obtain rfl : t = t₀ := heq
  have htidy := htidy.grow hgrown
  cases r with
  | error e => exact ⟨.inl ⟨rfl, .refl t⟩, htidy⟩
  | ok u =>
    have hempty := hempty u rfl
    refine Safe.bind ((safe_solo_grows (safe_fetchManifest baseUrl)).mono fun r s hr => ?_)
    obtain ⟨t₁, tr₁⟩ := s
    obtain ⟨⟨heq, hserved⟩, hgrown₁⟩ := hr
    obtain rfl : t₁ = t := heq
    have htidy := htidy.grow hgrown₁
    cases r with
    | error e => exact ⟨.inl ⟨rfl, .refl t₁⟩, htidy⟩
    | ok m =>
      have hserved := hserved m rfl
      refine Safe.ofExcept_bind (fun e _ => ⟨.inl ⟨rfl, .refl t₁⟩, htidy⟩) fun _ hmanifest => ?_
      have hrestored := safe_restoreFrom hsys baseUrl (hpublished.plain hserved) chunks (.refl t₁) htidy
      refine (safe_solo_grows hrestored).mono fun r s hr => ?_
      obtain ⟨⟨hfrom, htidy⟩, hgrown⟩ := hr
      exact ⟨.inr ⟨m, hserved.append hgrown, ok_of_mapError hmanifest, hempty, hfrom⟩, htidy⟩

end

/-! ## Runs -/

theorem chainAwaitingFirstPrepare_of_kept {t₀ t : FileTree Bytes} (hk : Kept t₀ t) :
    chainAwaitingFirstPrepare t = chainAwaitingFirstPrepare t₀ := by
  have hlong (p : TreePath) (hp : particlDir.length < p.length ∨ p.head? = some "basicswap.json") :
      ¬ Made t₀ p := by
    intro hmade
    cases prefix_particlDir.1 hmade.1 with
    | inl heq => simp [heq] at hp
    | inr heq => simp [heq, particlDir] at hp
  have hblocks : t blocks = t₀ blocks := by
    refine hk blocks fun hbad => ?_
    cases hbad with
    | inl hpart =>
      obtain ⟨name, hname⟩ := hpart
      exact absurd (congrArg List.length hname) (by simp [blocks, particlDir])
    | inr hmade => exact hlong blocks (.inl (by decide)) hmade
  have hconfig : t ["basicswap.json"] = t₀ ["basicswap.json"] := by
    refine hk ["basicswap.json"] fun hbad => ?_
    cases hbad with
    | inl hpart =>
      obtain ⟨name, hname⟩ := hpart
      have hend := congrArg (fun s => ".part".toList.isSuffixOf s.toList) (List.singleton_inj.1 hname)
      simp only [String.toList_append] at hend
      rw [List.isSuffixOf_iff_suffix.2 (List.suffix_append _ _)] at hend
      exact absurd hend (by decide)
    | inr hmade => exact hlong _ (.inr rfl) hmade
  rw [chainAwaitingFirstPrepare, chainAwaitingFirstPrepare, hblocks, hconfig]

theorem Restored.frame {env : Host} (hsys : IsSystem env.isSep) {ourParticld : String} {t₀ : FileTree Bytes}
    {r : Except String String} {s : State} (hr : Restored env ourParticld t₀ r s) :
    Frame (fun p => Part p ∨ Made t₀ p ∨ InChain p) t₀ s.1 := by
  have hkept (hk : Kept t₀ s.1) : Frame (fun p => Part p ∨ Made t₀ p ∨ InChain p) t₀ s.1 :=
    hk.mono fun p hp => hp.elim .inl fun hmade => .inr (.inl hmade)
  have hbut {sha : String} {archive : Bytes} {es : List TarEntry} (hc : Checked env sha archive es)
      (hb : KeptBut env es t₀ s.1) : Frame (fun p => Part p ∨ Made t₀ p ∨ InChain p) t₀ s.1 :=
    hb.mono fun p hp => hp.elim .inl fun h => h.elim (fun hmade => .inr (.inl hmade))
      fun hreaches => .inr (.inr (inChain_of_reaches hsys hc.sane hreaches))
  cases hr with
  | inl h => exact hkept h.2
  | inr h =>
    obtain ⟨m, -, -, -, hfrom⟩ := h
    cases r with
    | ok id =>
      obtain ⟨-, archive, es, -, hc, hb, -⟩ := hfrom
      exact hbut hc hb
    | error e =>
      cases hfrom with
      | inl hk => exact hkept hk
      | inr h =>
        obtain ⟨archive, es, -, hc, hb, -⟩ := h
        exact hbut hc hb

theorem Restored.kept {env : Host} {ourParticld : String} {t₀ : FileTree Bytes} {e : String} {s : State}
    (hr : Restored env ourParticld t₀ (.error e) s) (hu : ¬ UnpackFailed s.2) : Kept t₀ s.1 := by
  cases hr with
  | inl h => exact h.2
  | inr h =>
    obtain ⟨m, -, -, -, hfrom⟩ := h
    cases hfrom with
    | inl hk => exact hk
    | inr h =>
      obtain ⟨archive, es, -, -, -, hfailed⟩ := h
      exact absurd hfailed hu

def sampleManifest : SnapshotManifest where
  schema := 1
  snapshotId := "particl-mainnet"
  createdAt := ""
  particldVersion := "27.2.5.0"
  archive := ⟨"chain.tar.xz", "xz", 1, "01", none⟩
  tip := none
  chainstateMuhash := none
  minWalletVersion := none

def sampleEntry : TarEntry := ⟨"blocks/blk0", some [7]⟩

def sampleHost : Host where
  ed25519 _ := some fun _ _ => true
  sha256 b := b
  parse _ := .ok sampleManifest
  xz b := .ok b
  tar _ := .ok [.ok (.ok sampleEntry)]
  join name := [name]
  isSep := isSlash
  display _ := ""
  statusText _ := ""

def sampleResponse (text : String) : Response := ⟨200, none, .ok text⟩

/-- The files, and whether the download is over. -/
abbrev SampleState := FileTree Bytes × Bool

def sampleAnswer (s : SampleState) : (o : SnapOp) → Option (o.Ans × SampleState)
  | .exists_ p => some ((s.1 p).isSome, s)
  | .httpClient => some (.ok (), s)
  | .getManifest => some (.ok (sampleResponse "manifest"), s)
  | .getSignature => some (.ok (sampleResponse (String.ofList (List.replicate 128 'a'))), s)
  | .getArchive _ => some (.ok 200, s)
  | .chunk => some (if s.2 then none else some (.ok [1]), s.1, true)
  | .createDirs _ => some (.ok (), s)
  | .create p => some (.ok (), s.1.put p (.file []), s.2)
  | .append p b =>
    match s.1 p with
    | some (.file old) => some (.ok (), s.1.put p (.file (old ++ b)), s.2)
    | _ => none
  | .metadata p =>
    match s.1 p with
    | some (.file c) => some (.ok c.length, s)
    | _ => none
  | .remove p => some (.ok (), s.1.erase p, s.2)
  | .decompress source target =>
    match s.1 source with
    | some (.file c) => if c.length ≤ MAX_UNPACKED_BYTES then some (.ok c, s.1.put target (.file c), s.2) else none
    | _ => none
  | .entries p =>
    match s.1 p with
    | some (.file _) => some (.ok [.ok (.ok sampleEntry.path)], s)
    | _ => none
  | .unpack source dir =>
    match s.1 source with
    | some (.file _) => some (.ok (), s.1.put (targetOf sampleHost dir sampleEntry.path) (.file [7]), s.2)
    | _ => none

theorem targetOf_sampleEntry (dir : TreePath) : targetOf sampleHost dir sampleEntry.path = dir ++ ["blocks", "blk0"] := rfl

theorem sampleEntries {oks : List TarEntry}
    (h : [Except.ok (Except.ok sampleEntry)] =
      oks.map fun e => (.ok (.ok e) : Except String (Except String TarEntry))) : oks = [sampleEntry] := by
  cases oks with
  | nil => cases h
  | cons e rest =>
    obtain ⟨he, hrest⟩ := List.cons.inj h
    rw [List.map_eq_nil_iff.1 hrest.symm, Except.ok.inj (Except.ok.inj he)]

theorem does_sampleAnswer (s : SampleState) (o : SnapOp) (r : o.Ans) (s' : SampleState)
    (h : sampleAnswer s o = some (r, s')) : SnapOp.does sampleHost o r s.1 s'.1 := by
  cases o with
  | append p b =>
    rw [sampleAnswer] at h
    cases hp : s.1 p with
    | none => simp [hp] at h
    | some node =>
      cases node with
      | folder => simp [hp] at h
      | file old =>
        simp only [hp] at h
        cases h
        exact ⟨old, hp, rfl⟩
  | metadata p =>
    rw [sampleAnswer] at h
    cases hp : s.1 p with
    | none => simp [hp] at h
    | some node =>
      cases node with
      | folder => simp [hp] at h
      | file c =>
        simp only [hp] at h
        cases h
        exact ⟨⟨c, hp, rfl⟩, rfl⟩
  | decompress source target =>
    rw [sampleAnswer] at h
    cases hp : s.1 source with
    | none => simp [hp] at h
    | some node =>
      cases node with
      | folder => simp [hp] at h
      | file c =>
        simp only [hp] at h
        by_cases hcap : c.length ≤ MAX_UNPACKED_BYTES
        · rw [if_pos hcap] at h
          cases h
          exact ⟨hp, c, rfl, hcap, rfl⟩
        · rw [if_neg hcap] at h
          cases h
  | entries p =>
    rw [sampleAnswer] at h
    cases hp : s.1 p with
    | none => simp [hp] at h
    | some node =>
      cases node with
      | folder => simp [hp] at h
      | file c =>
        simp only [hp] at h
        cases h
        exact ⟨⟨c, _, hp, rfl, rfl⟩, rfl⟩
  | unpack source dir =>
    rw [sampleAnswer] at h
    cases hp : s.1 source with
    | none => simp [hp] at h
    | some node =>
      cases node with
      | folder => simp [hp] at h
      | file c =>
        simp only [hp] at h
        cases h
        refine .inr ⟨c, _, hp, rfl, fun oks hoks => ?_⟩
        rw [sampleEntries hoks]
        refine ⟨?_, fun _ e he content hcontent _ => ?_⟩
        · apply Frame.put
          exact ⟨sampleEntry, by simp, ["blocks", "blk0"], by simp, List.prefix_rfl, rfl⟩
        · rw [List.mem_singleton] at he
          subst he
          cases hcontent
          exact FileTree.put_self _ _ _
  | createDirs p =>
    cases h
    exact Frame.refl _ s.1
  | exists_ p =>
    cases h
    exact ⟨rfl, rfl⟩
  | _ =>
    cases h
    rfl

def SampleState.run {α : Type} (s : SampleState) (n : Nat) (p : SnapM α) : History × SnapM α × SampleState :=
  p.drive sampleAnswer n s

theorem SampleState.exec {α : Type} (s : SampleState) (n : Nat) (p : SnapM α) :
    Exec (SnapOp.does sampleHost) p s.1 (s.run n p).1 (s.run n p).2.1 (s.run n p).2.2.1 :=
  @exec_drive _ _ _ _ _ _ _ _ Prod.fst does_sampleAnswer n p s

theorem published_sampleHost : Published sampleHost := by
  intro body sig m _ hm
  cases hm
  rfl

def sampleStart : SampleState := (fun _ => none, false)

def sampleRestore : SnapM String := restoreSnapshot sampleHost "" "27.2.5.0" 2

theorem ended_sampleRestore : (sampleStart.run 30 sampleRestore).2.1.ended = some (.ok "particl-mainnet") := by
  decide +kernel

end Snapshot
