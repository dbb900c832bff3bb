import PwndaWallet.Vault.Flat

/-!
# The merged vault, entry by entry

In a vault with unique ids a merge leaves the entries of other groups and the Xelis ones in their
places, rebuilds the first of each kind in its place, and puts the new ones at the end.
-/

namespace Vault

open Js

/-! ## Fresh ids -/

/-- The generator repeats nothing and gives no id or group that is in use. -/
structure Fresh (opts : SchemaOpts) (v : VaultPayloadV3) : Prop where
  inj {m n : Nat} : opts.genId m = opts.genId n → m = n
  id (n : Nat) (w : WalletEntry) : w ∈ v.wallets → opts.genId n ≠ w.id
  group (n : Nat) (w : WalletEntry) : w ∈ v.wallets → opts.genId n ≠ groupKey w

section
variable {opts : SchemaOpts} {flat : VaultPayload} {prev : WalletKind → Option WalletEntry}

theorem slotIds_of_some {calls : Nat} {kinds : List WalletKind} {k : WalletKind} {w : WalletEntry}
    (hk : k ∈ kinds) (h : prev k = some w) : slotIds opts flat prev calls kinds k = w.id := by
  induction kinds generalizing calls with
  | nil => cases hk
  | cons k' kinds ih =>
    rw [slotIds]
    split
    · rename_i heq
      subst heq
      simp [h, SchemaOpts.orGen]
    · rename_i hne
      exact ih ((List.mem_cons.1 hk).resolve_left hne)

theorem slotIds_of_none {calls : Nat} {kinds : List WalletKind} {k : WalletKind}
    (hk : k ∈ kinds) (h : prev k = none) :
    ∃ n, calls ≤ n ∧ slotIds opts flat prev calls kinds k = opts.genId n := by
  induction kinds generalizing calls with
  | nil => cases hk
  | cons k' kinds ih =>
    rw [slotIds]
    split
    · rename_i heq
      subst heq
      exact ⟨calls, Nat.le_refl _, by simp [h, SchemaOpts.orGen]⟩
    · rename_i hne
      have hcalls : calls ≤ (if flat.describes k' then (opts.orGen ((prev k').map (·.id)) calls).2 else calls) := by
        cases prev k' <;> cases flat.describes k' <;> simp [SchemaOpts.orGen]
      obtain ⟨n, hn, heq⟩ := ih ((List.mem_cons.1 hk).resolve_left hne)
      exact ⟨n, Nat.le_trans hcalls hn, heq⟩

/-- Two kinds of a payload that both draw an id draw different ones. -/
theorem slotIds_ne (hinj : ∀ m n, opts.genId m = opts.genId n → m = n) {calls : Nat}
    {kinds : List WalletKind} (hnodup : kinds.Nodup) {k k' : WalletKind} (hk : k ∈ kinds) (hk' : k' ∈ kinds)
    (hne : k ≠ k') (h : prev k = none) (h' : prev k' = none) (hd : flat.describes k) (hd' : flat.describes k') :
    slotIds opts flat prev calls kinds k ≠ slotIds opts flat prev calls kinds k' := by
  induction kinds generalizing calls with
  | nil => cases hk
  | cons k₀ kinds ih =>
    rw [slotIds, slotIds]
    by_cases h₀ : k = k₀
    · subst h₀
      obtain ⟨n, hn, heq⟩ := @slotIds_of_none opts flat _ (calls + 1) _ _
        ((List.mem_cons.1 hk').resolve_left (Ne.symm hne)) h'
      simp only [if_true, if_neg (Ne.symm hne), h, hd, SchemaOpts.orGen, Option.map_none, heq]
      intro hgen
      have := hinj _ _ hgen
      omega
    by_cases h₁ : k' = k₀
    · subst h₁
      obtain ⟨n, hn, heq⟩ := @slotIds_of_none opts flat _ (calls + 1) _ _
        ((List.mem_cons.1 hk).resolve_left hne) h
      simp only [if_true, if_neg hne, h', hd', SchemaOpts.orGen, Option.map_none, heq]
      intro hgen
      have := hinj _ _ hgen
      omega
    · rw [if_neg h₀, if_neg h₁]
      exact ih (List.nodup_cons.1 hnodup).2 ((List.mem_cons.1 hk).resolve_left h₀)
        ((List.mem_cons.1 hk').resolve_left h₁)

end

/-! ## The stored order -/

theorem orderOf_of_not_mem {wallets : List WalletEntry} {id : String} (h : ∀ w ∈ wallets, w.id ≠ id) :
    orderOf wallets id = wallets.length := by
  have hnone : wallets.reverse.findIdx? (·.id == id) = none :=
    List.findIdx?_eq_none_iff.2 fun w hw => by simpa using h w (List.mem_reverse.1 hw)
  simp [orderOf, hnone]

theorem orderOf_getElem {wallets : List WalletEntry} (hu : (wallets.map (·.id)).Nodup) {i : Nat}
    (hi : i < wallets.length) : orderOf wallets wallets[i].id = i := by
  have hlen : wallets.reverse.length = wallets.length := List.length_reverse
  have hj : wallets.length - 1 - i < wallets.reverse.length := by omega
  have hget : wallets.reverse[wallets.length - 1 - i] = wallets[i] := by
    rw [List.getElem_reverse]
    congr 1
    omega
  have hidx : wallets.reverse.findIdx? (·.id == wallets[i].id) = some (wallets.length - 1 - i) := by
    rw [List.findIdx?_eq_some_iff_getElem]
    refine ⟨hj, by simp [hget], fun j hjlt => ?_⟩
    have hj' : j < wallets.length := by omega
    have hne : wallets[wallets.length - 1 - j].id ≠ wallets[i].id := by
      intro heq
      have hlt : wallets.length - 1 - j < (wallets.map (·.id)).length := by rw [List.length_map]; omega
      have hlt' : i < (wallets.map (·.id)).length := by rwa [List.length_map]
      have hinj := @List.Nodup.getElem_inj_iff _ _ hu _ hlt _ hlt'
      simp only [List.getElem_map, heq, true_iff] at hinj
      omega
    simpa [List.getElem_reverse] using hne
  simp only [orderOf, hidx]
  omega

theorem orderOf_lt {wallets : List WalletEntry} (hu : (wallets.map (·.id)).Nodup) {w : WalletEntry}
    (hw : w ∈ wallets) : orderOf wallets w.id < wallets.length := by
  obtain ⟨i, hi, rfl⟩ := List.getElem_of_mem hw
  rw [orderOf_getElem hu hi]
  exact hi

theorem pairwise_orderOf {wallets : List WalletEntry} (hu : (wallets.map (·.id)).Nodup) :
    wallets.Pairwise fun w w' => orderOf wallets w.id < orderOf wallets w'.id := by
  rw [List.pairwise_iff_getElem]
  intro i j hi hj hij
  rwa [orderOf_getElem hu hi, orderOf_getElem hu hj]

/-! ## Entry by entry -/

section
variable (flat : VaultPayload) (v : VaultPayloadV3) (opts : SchemaOpts) (a : Option String)

/-- What becomes of a stored entry. -/
def carry (w : WalletEntry) : Option WalletEntry :=
  if groupKey w = targetGid v opts a ∧ w.kind ≠ .xelis then
    if firstOf v.wallets (targetGid v opts a) w.kind = some w then slot flat v opts a w.kind else none
  else some w

/-- The new entry of a kind. -/
def newSlot (kind : WalletKind) : Option WalletEntry :=
  if (firstOf v.wallets (targetGid v opts a) kind).isNone then slot flat v opts a kind else none

end

variable {flat : VaultPayload} {v : VaultPayloadV3} {opts : SchemaOpts} {a : Option String}

theorem slot_kind {kind : WalletKind} {e : WalletEntry} (h : slot flat v opts a kind = some e) :
    kind ∈ flatKinds ∧ flat.describes kind := by
  have hd : flat.describes kind := by rw [← @slot_isSome flat v opts a, h]; rfl
  refine ⟨?_, hd⟩
  cases kind <;> first | decide | cases h

/-- A rebuilt entry has the id of the one that stood there. -/
theorem slot_id_of_some {kind : WalletKind} {e w : WalletEntry} (h : slot flat v opts a kind = some e)
    (hw : firstOf v.wallets (targetGid v opts a) kind = some w) : e.id = w.id := by
  rw [(slot_spec h).2.2]
  exact slotIds_of_some (slot_kind h).1 hw

theorem slot_id_of_none {kind : WalletKind} {e : WalletEntry} (h : slot flat v opts a kind = some e)
    (hw : firstOf v.wallets (targetGid v opts a) kind = none) : ∃ n, e.id = opts.genId n := by
  rw [(slot_spec h).2.2]
  obtain ⟨n, -, hn⟩ := @slotIds_of_none opts flat _
    (opts.orGen (groupIdForWallet v a) 0).2 _ _ (slot_kind h).1 hw
  exact ⟨n, hn⟩

theorem carry_id {w e : WalletEntry} (h : carry flat v opts a w = some e) : e.id = w.id := by
  unfold carry at h
  split at h
  · split at h
    · rename_i hfirst
      exact slot_id_of_some h hfirst
    · cases h
  · rw [Option.some.inj h]

theorem newSlot_spec {kind : WalletKind} {e : WalletEntry} (h : newSlot flat v opts a kind = some e) :
    firstOf v.wallets (targetGid v opts a) kind = none ∧ slot flat v opts a kind = some e := by
  unfold newSlot at h
  split at h
  · exact ⟨Option.isNone_iff_eq_none.1 ‹_›, h⟩
  · cases h

theorem slot_id_ne (hu : UniqueIds v) (hf : Fresh opts v) {k k' : WalletKind} {e e' : WalletEntry}
    (hne : k ≠ k') (h : slot flat v opts a k = some e) (h' : slot flat v opts a k' = some e') :
    e.id ≠ e'.id := by
  cases hw : firstOf v.wallets (targetGid v opts a) k with
  | some w =>
    obtain ⟨hmem, hkind, -⟩ := mem_of_firstOf hw
    rw [slot_id_of_some h hw]
    cases hw' : firstOf v.wallets (targetGid v opts a) k' with
    | some w' =>
      obtain ⟨hmem', hkind', -⟩ := mem_of_firstOf hw'
      rw [slot_id_of_some h' hw']
      intro heq
      exact hne (by rw [← hkind, ← hkind', hu.eq hmem hmem' heq])
    | none =>
      obtain ⟨n, hn⟩ := slot_id_of_none h' hw'
      rw [hn]
      exact (hf.id n w hmem).symm
  | none =>
    cases hw' : firstOf v.wallets (targetGid v opts a) k' with
    | some w' =>
      obtain ⟨n, hn⟩ := slot_id_of_none h hw
      rw [hn, slot_id_of_some h' hw']
      exact hf.id n w' (mem_of_firstOf hw').1
    | none =>
      rw [(slot_spec h).2.2, (slot_spec h').2.2]
      exact slotIds_ne (fun _ _ => hf.inj) (by decide) (slot_kind h).1 (slot_kind h').1 hne hw hw'
        (slot_kind h).2 (slot_kind h').2

/-- A rebuilt entry has the id of a stored one only if it stands for it. -/
theorem slot_id_old (hu : UniqueIds v) (hf : Fresh opts v) {k : WalletKind} {e w : WalletEntry}
    (h : slot flat v opts a k = some e) (hw : w ∈ v.wallets) (hid : e.id = w.id) :
    firstOf v.wallets (targetGid v opts a) k = some w := by
  cases hfirst : firstOf v.wallets (targetGid v opts a) k with
  | some w' =>
    rw [slot_id_of_some h hfirst] at hid
    rw [hu.eq (mem_of_firstOf hfirst).1 hw hid]
  | none =>
    obtain ⟨n, hn⟩ := slot_id_of_none h hfirst
    exact absurd (hn.symm.trans hid) (hf.id n w hw)

theorem nodup_mergedParts (hu : UniqueIds v) (hf : Fresh opts v) :
    ((mergedParts flat v opts a).map (·.id)).Nodup := by
  have hsub : ∀ q : WalletEntry → Bool, ((v.wallets.filter q).map (·.id)).Nodup := fun q =>
    List.Nodup.sublist (List.filter_sublist.map _) hu
  have hslots : ((flatKinds.filterMap (slot flat v opts a)).map (·.id)).Nodup := by
    refine List.pairwise_map.2 (List.Pairwise.filterMap _ (fun k k' hne e he e' he' => ?_) (by decide : flatKinds.Nodup))
    exact slot_id_ne hu hf hne he he'
  simp only [mergedParts, List.map_append]
  refine List.Nodup.append (List.Nodup.append hslots (hsub _) ?_) (hsub _) ?_
  · intro i hi hi'
    obtain ⟨e, he, rfl⟩ := List.mem_map.1 hi
    obtain ⟨k, hk, hslot⟩ := List.mem_filterMap.1 he
    obtain ⟨w, hw, hid⟩ := List.mem_map.1 hi'
    obtain ⟨hw, hwk⟩ := List.mem_filter.1 hw
    have hkind := (mem_of_firstOf (slot_id_old hu hf hslot hw hid.symm)).2.1
    simp only [Bool.and_eq_true, beq_iff_eq] at hwk
    rw [← hkind, hwk.2] at hk
    exact absurd hk (by decide)
  · intro i hi hi'
    obtain ⟨w, hw, rfl⟩ := List.mem_map.1 hi'
    obtain ⟨hw, hwg⟩ := List.mem_filter.1 hw
    rcases List.mem_append.1 hi with hi | hi
    · obtain ⟨e, he, hid⟩ := List.mem_map.1 hi
      obtain ⟨k, hk, hslot⟩ := List.mem_filterMap.1 he
      have hg := (mem_of_firstOf (slot_id_old hu hf hslot hw hid)).2.2
      simp [hg] at hwg
    · obtain ⟨x, hx, hid⟩ := List.mem_map.1 hi
      obtain ⟨hx, hxg⟩ := List.mem_filter.1 hx
      obtain rfl := hu.eq hx hw hid
      simp only [Bool.and_eq_true, beq_iff_eq] at hxg
      simp [hxg.1] at hwg

theorem filterMap_sublist_filterMap {α β : Type} {f g : α → Option β} (h : ∀ x y, f x = some y → g x = some y)
    (l : List α) : (l.filterMap f).Sublist (l.filterMap g) := by
  induction l with
  | nil => exact .slnil
  | cons x l ih =>
    cases hx : f x with
    | some y =>
      rw [List.filterMap_cons_some hx, List.filterMap_cons_some (h x y hx)]
      exact ih.cons_cons y
    | none =>
      rw [List.filterMap_cons_none hx]
      exact ih.trans (List.Sublist.filterMap g (List.sublist_cons_self x l))

theorem merge_eq (hu : UniqueIds v) (hf : Fresh opts v) : (mergeFlatIntoV3 flat (some v) opts a).wallets =
    v.wallets.filterMap (carry flat v opts a) ++ flatKinds.filterMap (newSlot flat v opts a) := by
  have hnews : (flatKinds.filterMap (newSlot flat v opts a)).Sublist (flatKinds.filterMap (slot flat v opts a)) :=
    filterMap_sublist_filterMap (fun _ _ h => (newSlot_spec h).2) _
  have hparts := @nodup_mergedParts flat _ _ a hu hf
  have hslots : ((flatKinds.filterMap (slot flat v opts a)).map (·.id)).Nodup := by
    rw [mergedParts, List.append_assoc, List.map_append] at hparts
    exact hparts.of_append_left
  have hfresh : ∀ e ∈ flatKinds.filterMap (newSlot flat v opts a), ∀ w ∈ v.wallets, w.id ≠ e.id := by
    intro e he w hw
    obtain ⟨k, -, hk⟩ := List.mem_filterMap.1 he
    obtain ⟨hnone, hslot⟩ := newSlot_spec hk
    obtain ⟨n, hn⟩ := slot_id_of_none hslot hnone
    rw [hn]
    exact (hf.id n w hw).symm
  have holds : (v.wallets.filterMap (carry flat v opts a)).Pairwise
      fun e e' => orderOf v.wallets e.id < orderOf v.wallets e'.id := by
    refine List.Pairwise.filterMap _ (fun w w' hlt e he e' he' => ?_) (pairwise_orderOf hu)
    rwa [carry_id he, carry_id he']
  rw [merge_wallets]
  refine sortOn_eq (n := v.wallets.length) ?_ holds ?_ ?_ (hnews.trans ?_)
  · -- the same entries, and neither list repeats one
    refine (List.perm_ext_iff_of_nodup (List.Nodup.of_map _ hparts) ?_).2 fun e => ?_
    · refine List.Nodup.of_map (·.id) ?_
      rw [List.map_append]
      refine List.Nodup.append ?_ (hslots.sublist (hnews.map _)) ?_
      · exact List.pairwise_map.2 (holds.imp fun hlt heq => by rw [heq] at hlt; omega)
      · intro i hi hi'
        obtain ⟨e, he, rfl⟩ := List.mem_map.1 hi
        obtain ⟨w, hw, hc⟩ := List.mem_filterMap.1 he
        obtain ⟨e', he', hid⟩ := List.mem_map.1 hi'
        exact hfresh e' he' w hw (by rw [hid, carry_id hc])
    · have hmem := @mem_merge flat v opts a e
      rw [merge_wallets, sortOn, mem_sort] at hmem
      rw [hmem, List.mem_append, List.mem_filterMap, List.mem_filterMap]
      constructor
      · rintro (⟨k, hk⟩ | ⟨hw, hx⟩)
        · cases hfirst : firstOf v.wallets (targetGid v opts a) k with
          | some w =>
            obtain ⟨hw, rfl, hg⟩ := mem_of_firstOf hfirst
            have hne : w.kind ≠ .xelis := fun hx => by
              have := (slot_kind hk).1
              rw [hx] at this
              exact absurd this (by decide)
            exact .inl ⟨w, hw, by simp [carry, hg, hne, hfirst, hk]⟩
          | none => exact .inr ⟨k, (slot_kind hk).1, by simp [newSlot, hfirst, hk]⟩
        · exact .inl ⟨e, hw, by rw [carry, if_neg fun h => h.2 (hx h.1)]⟩
      · rintro (⟨w, hw, hc⟩ | ⟨k, _, hk⟩)
        · unfold carry at hc
          split at hc
          · split at hc
            · exact .inl ⟨_, hc⟩
            · cases hc
          · rename_i hnot
            obtain rfl := Option.some.inj hc
            exact .inr ⟨hw, fun hg => by_contra fun hx => hnot ⟨hg, hx⟩⟩
        · exact .inl ⟨k, (newSlot_spec hk).2⟩
  · intro e he
    obtain ⟨w, hw, hc⟩ := List.mem_filterMap.1 he
    rw [carry_id hc]
    exact orderOf_lt hu hw
  · exact fun e he => orderOf_of_not_mem (hfresh e he)
  · rw [mergedParts, List.append_assoc]
    exact List.sublist_append_left _ _

theorem uniqueIds_merge (hu : UniqueIds v) (hf : Fresh opts v) :
    UniqueIds (mergeFlatIntoV3 flat (some v) opts a) := by
  have hperm := perm_sort (fun w w' : WalletEntry => orderOf v.wallets w.id ≤ orderOf v.wallets w'.id)
    (mergedParts flat v opts a)
  exact (hperm.map (·.id)).nodup_iff.2 (nodup_mergedParts hu hf)

/-! ## Groups after the merge -/

theorem carry_spec {w e : WalletEntry} (h : carry flat v opts a w = some e) :
    e.kind = w.kind ∧ groupKey e = groupKey w := by
  unfold carry at h
  split at h
  · rename_i hin
    split at h
    · exact ⟨(slot_spec h).1, (groupKey_slot h).trans hin.1.symm⟩
    · cases h
  · obtain rfl := Option.some.inj h
    exact ⟨rfl, rfl⟩

theorem carry_of_ne {w : WalletEntry} (h : groupKey w ≠ targetGid v opts a) :
    carry flat v opts a w = some w := by
  rw [carry, if_neg fun hin => h hin.1]

theorem groupKey_newSlot {e : WalletEntry} (h : e ∈ flatKinds.filterMap (newSlot flat v opts a)) :
    groupKey e = targetGid v opts a := by
  obtain ⟨k, -, hk⟩ := List.mem_filterMap.1 h
  exact groupKey_slot (newSlot_spec hk).2

/-- In the target group the merged vault has the rebuilt entries. -/
theorem firstOf_merge {k : WalletKind} (hk : k ≠ .xelis) :
    firstOf (mergeFlatIntoV3 flat (some v) opts a).wallets (targetGid v opts a) k = slot flat v opts a k := by
  have honly : ∀ x ∈ (mergeFlatIntoV3 flat (some v) opts a).wallets, x.kind = k →
      groupKey x = targetGid v opts a → slot flat v opts a k = some x := by
    intro x hx hxk hxg
    rcases mem_merge.1 hx with ⟨k', hk'⟩ | ⟨_, hxelis⟩
    · rwa [← hxk, (slot_spec hk').1]
    · exact absurd (hxk.symm.trans (hxelis hxg)) hk
  cases hfirst : firstOf (mergeFlatIntoV3 flat (some v) opts a).wallets (targetGid v opts a) k with
  | some x =>
    obtain ⟨hx, hxk, hxg⟩ := mem_of_firstOf hfirst
    exact (honly x hx hxk hxg).symm
  | none =>
    cases hslot : slot flat v opts a k with
    | none => rfl
    | some e =>
      have hno := List.find?_eq_none.1 hfirst e (mem_merge.2 (.inl ⟨k, hslot⟩))
      simp [(slot_spec hslot).1, groupKey_slot hslot] at hno

/-- Every other group is as it was. -/
theorem firstOf_merge_of_ne (hu : UniqueIds v) (hf : Fresh opts v) {g : String} {k : WalletKind}
    (hg : g ≠ targetGid v opts a) :
    firstOf (mergeFlatIntoV3 flat (some v) opts a).wallets g k = firstOf v.wallets g k := by
  have hnew : (flatKinds.filterMap (newSlot flat v opts a)).find?
      (fun w => w.kind == k && groupKey w == g) = none :=
    List.find?_eq_none.2 fun e he => by simp [groupKey_newSlot he, Ne.symm hg]
  have hcarry : ∀ w : WalletEntry, (carry flat v opts a w).any (fun w => w.kind == k && groupKey w == g) =
      (w.kind == k && groupKey w == g) := by
    intro w
    by_cases hw : groupKey w = g
    · simp [carry_of_ne (hw ▸ hg : groupKey w ≠ targetGid v opts a)]
    · cases hc : carry flat v opts a w with
      | none => simp [hw]
      | some e => rw [Option.any_some, (carry_spec hc).2, beq_false_of_ne hw, Bool.and_false, Bool.and_false]
  simp only [firstOf, merge_eq hu hf, List.find?_append, hnew, Option.or_none, List.find?_filterMap, hcarry]
  cases hfind : v.wallets.find? fun w => w.kind == k && groupKey w == g with
  | none => rfl
  | some w =>
    have hp := List.find?_some hfind
    simp only [Bool.and_eq_true, beq_iff_eq] at hp
    exact carry_of_ne (hp.2 ▸ hg)

theorem find?_of_imp {α : Type} {p q : α → Bool} {l : List α} {x : α} (h : l.find? p = some x)
    (hqp : ∀ y, q y → p y) (hx : q x) : l.find? q = some x := by
  induction l with
  | nil => cases h
  | cons y l ih =>
    rw [List.find?_cons] at h ⊢
    cases hp : p y with
    | true =>
      obtain rfl : y = x := by simpa [hp] using h
      simp [hx]
    | false =>
      have hq : q y = false := by
        by_contra hq
        rw [hqp y (by simpa using hq)] at hp
        cases hp
      rw [hq]
      exact ih (by simpa [hp] using h)

/-- The first bip39 wallet stays first, whichever group is written. -/
theorem primary_merge (hu : UniqueIds v) (hf : Fresh opts v) (h : ∃ w ∈ v.wallets, w.kind = .bip39) :
    primaryGroupId (mergeFlatIntoV3 flat (some v) opts a) = primaryGroupId v := by
  obtain ⟨r, hr⟩ : ∃ r, v.wallets.find? (·.kind == .bip39) = some r := by
    obtain ⟨w, hw, hk⟩ := h
    exact Option.isSome_iff_exists.1 (List.find?_isSome.2 ⟨w, hw, by simp [hk]⟩)
  have hrk : r.kind = .bip39 := by simpa using List.find?_some hr
  obtain ⟨e, he⟩ : ∃ e, carry flat v opts a r = some e := by
    by_cases hg : groupKey r = targetGid v opts a
    · have hfirst : firstOf v.wallets (targetGid v opts a) .bip39 = some r :=
        find?_of_imp hr (fun y hy => (Bool.and_eq_true_iff.1 hy).1) (by simp [hrk, hg])
      simpa [carry, hg, hrk, hfirst] using
        Option.isSome_iff_exists.1 (@slot_isSome flat v opts a .bip39)
    · exact ⟨r, carry_of_ne hg⟩
  have hfind : v.wallets.find? (fun w => (carry flat v opts a w).any (·.kind == .bip39)) = some r := by
    refine find?_of_imp hr (fun y hy => ?_) (by simp [he, (carry_spec he).1, hrk])
    cases hc : carry flat v opts a y with
    | none => simp [hc] at hy
    | some e' => simpa [hc, (carry_spec hc).1] using hy
  simp [primaryGroupId, merge_eq hu hf, List.find?_append, List.find?_filterMap, hfind, hr, he,
    (carry_spec he).2]

/-- A vault without a bip39 wallet gets one in the group that is written, which becomes the primary. -/
theorem primary_merge_of_none (hu : UniqueIds v) (hf : Fresh opts v)
    (h : ∀ w ∈ v.wallets, w.kind ≠ .bip39) :
    primaryGroupId (mergeFlatIntoV3 flat (some v) opts a) = some (targetGid v opts a) := by
  have hold : (v.wallets.filterMap (carry flat v opts a)).find? (·.kind == .bip39) = none :=
    List.find?_eq_none.2 fun e he => by
      obtain ⟨w, hw, hc⟩ := List.mem_filterMap.1 he
      simp [(carry_spec hc).1, h w hw]
  have hfirst : firstOf v.wallets (targetGid v opts a) .bip39 = none := by
    cases hf : firstOf v.wallets (targetGid v opts a) .bip39 with
    | none => rfl
    | some w => exact absurd (mem_of_firstOf hf).2.1 (h w (mem_of_firstOf hf).1)
  obtain ⟨e, he⟩ := Option.isSome_iff_exists.1
    (@slot_isSome flat v opts a .bip39)
  have hnew : newSlot flat v opts a .bip39 = some e := by simp [newSlot, hfirst, he]
  simp [primaryGroupId, merge_eq hu hf, List.find?_append, hold, flatKinds, hnew, (slot_spec he).1,
    groupKey_slot he]

theorem primary_merge_cases (hu : UniqueIds v) (hf : Fresh opts v) :
    primaryGroupId (mergeFlatIntoV3 flat (some v) opts a) = primaryGroupId v ∨
      primaryGroupId (mergeFlatIntoV3 flat (some v) opts a) = some (targetGid v opts a) := by
  by_cases h : ∃ w ∈ v.wallets, w.kind = .bip39
  · exact .inl (primary_merge hu hf h)
  · exact .inr (primary_merge_of_none hu hf fun w hw hk => h ⟨w, hw, hk⟩)

end Vault
