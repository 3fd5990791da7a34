import Mathlib.Data.Finset.Card
import Mathlib.Data.List.Sort

/-! Lists of pairs read as maps, where the last pair of a key counts, and maps kept as lists in the order of
their keys. What is kept of a list of pairs is one list only, however it is come by: by putting the pairs in
one by one, or by looking for the next larger key until there is none. -/

namespace Keyed

variable {K V W : Type} [LinearOrder K]

/-! ### The value of a key -/

/-- What the pairs say of `k`: the last one that has it. -/
def last (pairs : List (K × V)) (k : K) : Option V :=
  pairs.foldl (fun v kv => if kv.1 = k then some kv.2 else v) none

@[simp] theorem last_nil (k : K) : last ([] : List (K × V)) k = none := rfl

@[simp] theorem last_concat (pairs : List (K × V)) (kv : K × V) (k : K) :
    last (pairs ++ [kv]) k = if kv.1 = k then some kv.2 else last pairs k := by simp [last]

theorem last_isSome {pairs : List (K × V)} {k : K} : (last pairs k).isSome ↔ k ∈ pairs.map Prod.fst := by
  induction pairs using List.reverseRecOn with
  | nil => simp
  | append_singleton pairs kv ih =>
    rw [last_concat, List.map_append, List.mem_append, ← ih]
    by_cases hk : kv.1 = k
    · simp [hk]
    · simp [hk, Ne.symm hk]

theorem mem_of_last {pairs : List (K × V)} {k : K} {v : V} (h : last pairs k = some v) : (k, v) ∈ pairs := by
  induction pairs using List.reverseRecOn with
  | nil => cases h
  | append_singleton pairs kv ih =>
    rw [last_concat] at h
    rw [List.mem_append, List.mem_singleton]
    split at h
    · rename_i hk
      subst hk
      obtain rfl := Option.some.inj h
      exact Or.inr rfl
    · exact Or.inl (ih h)

theorem last_map (f : V → W) (pairs : List (K × V)) (k : K) :
    last (pairs.map fun kv => (kv.1, f kv.2)) k = (last pairs k).map f := by
  induction pairs using List.reverseRecOn with
  | nil => rfl
  | append_singleton pairs kv ih =>
    rw [List.map_append, List.map_singleton, last_concat, last_concat, ih]
    split <;> rfl

/-! ### What is kept of the pairs -/

/-- Every key of the pairs once, in order, with its last value. -/
structure Kept (pairs l : List (K × V)) : Prop where
  ascending : l.Pairwise fun a b => a.1 < b.1
  entries : ∀ k v, (k, v) ∈ l ↔ last pairs k = some v

theorem Kept.unique {pairs l l' : List (K × V)} (h : Kept pairs l) (h' : Kept pairs l') : l = l' := by
  have hanti : Std.Antisymm fun a b : K × V => a.1 < b.1 := ⟨fun a b hab hba => absurd hab (not_lt_of_gt hba)⟩
  have hirrefl : Std.Irrefl fun a b : K × V => a.1 < b.1 := ⟨fun a => lt_irrefl a.1⟩
  refine List.Pairwise.eq_of_mem_iff h.ascending h'.ascending fun kv => ?_
  rw [h.entries, h'.entries]

theorem Kept.map (f : V → W) {pairs l : List (K × V)} (h : Kept pairs l) :
    Kept (pairs.map fun kv => (kv.1, f kv.2)) (l.map fun kv => (kv.1, f kv.2)) := by
  refine ⟨List.pairwise_map.mpr h.ascending, fun k w => ?_⟩
  rw [last_map, Option.map_eq_some_iff, List.mem_map]
  constructor
  · rintro ⟨⟨k', v⟩, hmem, heq⟩
    obtain ⟨rfl, rfl⟩ := Prod.mk.inj heq
    exact ⟨v, (h.entries _ _).mp hmem, rfl⟩
  · rintro ⟨v, hv, rfl⟩
    exact ⟨(k, v), (h.entries k v).mpr hv, rfl⟩

theorem Kept.ne_nil {pairs l : List (K × V)} (h : Kept pairs l) (hne : pairs ≠ []) : l ≠ [] := by
  obtain ⟨kv, hkv⟩ := List.exists_mem_of_ne_nil pairs hne
  obtain ⟨v, hv⟩ := Option.isSome_iff_exists.mp (last_isSome.mpr (List.mem_map_of_mem hkv))
  exact List.ne_nil_of_mem ((h.entries _ v).mpr hv)

theorem Kept.subperm {pairs l : List (K × V)} (h : Kept pairs l) : l.Subperm pairs := by
  refine List.subperm_of_subset (h.ascending.imp fun hlt heq => ?_) fun kv hkv => mem_of_last ((h.entries _ _).mp hkv)
  rw [heq] at hlt
  exact lt_irrefl _ hlt

/-- A list in the order of its keys is what is kept of itself. -/
theorem kept_self {l : List (K × V)} (h : l.Pairwise fun a b => a.1 < b.1) : Kept l l := by
  refine ⟨h, ?_⟩
  induction l using List.reverseRecOn with
  | nil => simp
  | append_singleton l kv ih =>
    obtain ⟨hl, -, hlt⟩ := List.pairwise_append.mp h
    intro k v
    rw [List.mem_append, List.mem_singleton, last_concat, ih hl]
    by_cases hk : kv.1 = k
    · subst hk
      rw [if_pos rfl, ← ih hl]
      constructor
      · rintro (hmem | heq)
        · exact absurd (hlt _ hmem kv (List.mem_singleton.mpr rfl)) (lt_irrefl _)
        · exact congrArg (fun kv => some kv.2) heq.symm
      · intro heq
        obtain rfl := Option.some.inj heq
        exact Or.inr rfl
    · rw [if_neg hk]
      exact or_iff_left fun heq => hk (congrArg Prod.fst heq).symm

/-! ### One pair after another -/

/-- Puts an entry in its place, over an earlier one of the same key. -/
def put (k : K) (v : V) : List (K × V) → List (K × V)
  | [] => [(k, v)]
  | (k', v') :: rest =>
    if k < k' then (k, v) :: (k', v') :: rest
    else if k = k' then (k, v) :: rest
    else (k', v') :: put k v rest

theorem mem_put {k : K} {v : V} {l : List (K × V)} (h : l.Pairwise fun a b => a.1 < b.1) (kv : K × V) :
    kv ∈ put k v l ↔ kv = (k, v) ∨ (kv.1 ≠ k ∧ kv ∈ l) := by
  induction l with
  | nil => simp [put]
  | cons head rest ih =>
    obtain ⟨k', v'⟩ := head
    obtain ⟨hhead, hrest⟩ := List.pairwise_cons.mp h
    have hne : ∀ {k}, k ≤ k' → ∀ kv ∈ rest, kv.1 ≠ k := fun hle kv hkv heq =>
      absurd (hhead kv hkv) (not_lt_of_ge (heq ▸ hle))
    unfold put
    split_ifs with hlt heq
    · rw [List.mem_cons]
      refine or_congr_right ⟨fun hkv => ⟨?_, hkv⟩, And.right⟩
      rcases List.mem_cons.mp hkv with rfl | hkv
      · exact hlt.ne'
      · exact hne hlt.le kv hkv
    · subst heq
      rw [List.mem_cons]
      refine or_congr_right ⟨fun hkv => ⟨hne le_rfl kv hkv, List.mem_cons_of_mem _ hkv⟩, fun ⟨hkey, hkv⟩ => ?_⟩
      exact (List.mem_cons.mp hkv).resolve_left fun heq => hkey (congrArg Prod.fst heq)
    · rw [List.mem_cons, ih hrest]
      constructor
      · rintro (rfl | hnew | ⟨hkey, hkv⟩)
        · exact Or.inr ⟨Ne.symm heq, List.mem_cons_self⟩
        · exact Or.inl hnew
        · exact Or.inr ⟨hkey, List.mem_cons_of_mem _ hkv⟩
      · rintro (hnew | ⟨hkey, hkv⟩)
        · exact Or.inr (Or.inl hnew)
        · exact (List.mem_cons.mp hkv).imp_right fun hkv => Or.inr ⟨hkey, hkv⟩

theorem ascending_put (k : K) (v : V) {l : List (K × V)} (h : l.Pairwise fun a b => a.1 < b.1) :
    (put k v l).Pairwise fun a b => a.1 < b.1 := by
  induction l with
  | nil => exact List.pairwise_singleton _ _
  | cons head rest ih =>
    obtain ⟨k', v'⟩ := head
    obtain ⟨hhead, hrest⟩ := List.pairwise_cons.mp h
    unfold put
    split_ifs with hlt heq
    · refine List.pairwise_cons.mpr ⟨fun kv hkv => ?_, h⟩
      rcases List.mem_cons.mp hkv with rfl | hkv
      · exact hlt
      · exact hlt.trans (hhead kv hkv)
    · subst heq
      exact List.pairwise_cons.mpr ⟨hhead, hrest⟩
    · refine List.pairwise_cons.mpr ⟨fun kv hkv => ?_, ih hrest⟩
      rcases (mem_put hrest kv).mp hkv with rfl | ⟨-, hkv⟩
      · exact lt_of_le_of_ne (not_lt.mp hlt) (Ne.symm heq)
      · exact hhead kv hkv

theorem Kept.put {pairs l : List (K × V)} (h : Kept pairs l) (k : K) (v : V) :
    Kept (pairs ++ [(k, v)]) (Keyed.put k v l) := by
  refine ⟨ascending_put k v h.ascending, fun k' v' => ?_⟩
  rw [mem_put h.ascending, last_concat, h.entries, Prod.mk.injEq]
  by_cases hk : k = k'
  · subst hk
    simp [eq_comm]
  · simp [hk, Ne.symm hk]

theorem kept_foldl (pairs : List (K × V)) : Kept pairs (pairs.foldl (fun l kv => Keyed.put kv.1 kv.2 l) []) := by
  induction pairs using List.reverseRecOn with
  | nil => exact ⟨List.Pairwise.nil, by simp⟩
  | append_singleton pairs kv ih =>
    rw [List.foldl_append]
    exact ih.put kv.1 kv.2

/-! ### The next larger key, again and again -/

/-- Past the key that was found last, if there was one. -/
def Past (after : Option K) (k : K) : Prop := ∀ a ∈ after, a < k

/-- The smallest key of the pairs past `after` with its last value, or nothing if there is none. -/
structure IsNext (pairs : List (K × V)) (after : Option K) (next : Option (K × V)) : Prop where
  found : ∀ kv ∈ next, Past after kv.1 ∧ last pairs kv.1 = some kv.2
  least : ∀ k ∈ pairs.map Prod.fst, Past after k → ∃ kv ∈ next, kv.1 ≤ k

/-- What a search that has `n` turns finds, each time past the key that it found before. -/
def search (next : Option K → Option (K × V)) : Nat → Option K → List (K × V)
  | 0, _ => []
  | n + 1, after =>
    match next after with
    | some kv => kv :: search next n (some kv.1)
    | none => []

/-- The keys that are still to be found. -/
def remaining (pairs : List (K × V)) (after : Option K) : Finset K :=
  (pairs.map Prod.fst).toFinset.filter fun k => after.all fun a => decide (a < k)

theorem none_past {pairs : List (K × V)} {after : Option K} (h : ∀ k ∈ pairs.map Prod.fst, ¬ Past after k)
    (k : K) (v : V) : ¬ (last pairs k = some v ∧ Past after k) := by
  rintro ⟨hlast, hpast⟩
  exact h k (last_isSome.mp (by rw [hlast]; rfl)) hpast

theorem mem_remaining {pairs : List (K × V)} {after : Option K} {k : K} :
    k ∈ remaining pairs after ↔ (last pairs k).isSome ∧ Past after k := by
  rw [remaining, Finset.mem_filter, List.mem_toFinset, last_isSome, Option.all_eq_true]
  simp [Past]

section
variable {pairs : List (K × V)} {after : Option K} {next : Option (K × V)} {kv : K × V}

theorem isNext_nil (after : Option K) : IsNext ([] : List (K × V)) after none := ⟨nofun, nofun⟩

/-- A pair that is not past `after` is not looked at. -/
theorem IsNext.skip (h : IsNext pairs after next) (hkv : ¬ Past after kv.1) : IsNext (pairs ++ [kv]) after next := by
  refine ⟨fun found hfound => ?_, fun k hk hpast => ?_⟩
  · obtain ⟨hpast, hlast⟩ := h.found found hfound
    have hne : kv.1 ≠ found.1 := fun heq => hkv (heq ▸ hpast)
    exact ⟨hpast, by rw [last_concat, if_neg hne, hlast]⟩
  · rw [List.map_append, List.mem_append] at hk
    rcases hk with hk | hk
    · exact h.least k hk hpast
    · obtain rfl := List.mem_singleton.mp hk
      exact absurd hpast hkv

/-- Nor is one that is past what was found. -/
theorem IsNext.keep {found : K × V} (h : IsNext pairs after (some found)) (hlt : found.1 < kv.1) :
    IsNext (pairs ++ [kv]) after (some found) := by
  obtain ⟨hpast, hlast⟩ := h.found found rfl
  refine ⟨fun found' hfound => ?_, fun k hk hk' => ?_⟩
  · obtain rfl := Option.some.inj hfound
    exact ⟨hpast, by rw [last_concat, if_neg hlt.ne', hlast]⟩
  · rw [List.map_append, List.mem_append] at hk
    rcases hk with hk | hk
    · exact h.least k hk hk'
    · obtain rfl := List.mem_singleton.mp hk
      exact ⟨found, rfl, hlt.le⟩

/-- Any other is the smallest now, or has a later value for the smallest. -/
theorem IsNext.take (h : IsNext pairs after next) (hkv : Past after kv.1) (hle : ∀ found ∈ next, kv.1 ≤ found.1) :
    IsNext (pairs ++ [kv]) after (some kv) := by
  refine ⟨fun found hfound => ?_, fun k hk hpast => ?_⟩
  · obtain rfl := Option.some.inj hfound
    exact ⟨hkv, by rw [last_concat, if_pos rfl]⟩
  · rw [List.map_append, List.mem_append] at hk
    rcases hk with hk | hk
    · obtain ⟨found, hfound, hfk⟩ := h.least k hk hpast
      exact ⟨kv, rfl, (hle found hfound).trans hfk⟩
    · obtain rfl := List.mem_singleton.mp hk
      exact ⟨kv, rfl, le_rfl⟩

/-- There is less to be found past a key that was found. -/
theorem IsNext.remaining_lt (h : IsNext pairs after (some kv)) :
    (remaining pairs (some kv.1)).card < (remaining pairs after).card := by
  obtain ⟨hpast, hlast⟩ := h.found kv rfl
  refine Finset.card_lt_card ⟨fun k hk => ?_, fun hsub => ?_⟩
  · obtain ⟨hmem, hk⟩ := mem_remaining.mp hk
    exact mem_remaining.mpr ⟨hmem, fun a ha => (hpast a ha).trans (hk kv.1 rfl)⟩
  · have hkv := mem_remaining.mp (hsub (mem_remaining.mpr ⟨by rw [hlast]; rfl, hpast⟩))
    exact absurd (hkv.2 kv.1 rfl) (lt_irrefl _)

end

/-- With turns enough, the search finds all there is past `after`, in order. -/
theorem search_spec {next : Option K → Option (K × V)} {pairs : List (K × V)}
    (hnext : ∀ after, IsNext pairs after (next after)) (n : Nat) (after : Option K)
    (hn : (remaining pairs after).card ≤ n) :
    ((search next n after).Pairwise fun a b => a.1 < b.1) ∧
      ∀ k v, (k, v) ∈ search next n after ↔ last pairs k = some v ∧ Past after k := by
  induction n generalizing after with
  | zero =>
    refine ⟨List.Pairwise.nil, fun k v => iff_of_false (by simp [search]) (none_past (fun k hk hpast => ?_) k v)⟩
    have hmem := mem_remaining.mpr ⟨last_isSome.mpr hk, hpast⟩
    rw [Finset.card_eq_zero.mp (Nat.le_zero.mp hn)] at hmem
    exact absurd hmem (Finset.notMem_empty k)
  | succ n ih =>
    have hspec := hnext after
    unfold search
    cases hfound : next after with
    | none =>
      rw [hfound] at hspec
      refine ⟨List.Pairwise.nil, fun k v => iff_of_false (by simp) (none_past (fun k hk hpast => ?_) k v)⟩
      obtain ⟨kv, hkv, -⟩ := hspec.least k hk hpast
      exact absurd hkv (by simp)
    | some kv =>
      rw [hfound] at hspec
      obtain ⟨hpast, hlast⟩ := hspec.found kv rfl
      obtain ⟨hasc, hmem⟩ := ih (some kv.1) (by have := hspec.remaining_lt; omega)
      refine ⟨List.pairwise_cons.mpr ⟨fun kv' hkv' => ?_, hasc⟩, fun k v => ?_⟩
      · exact ((hmem kv'.1 kv'.2).mp hkv').2 kv.1 rfl
      · rw [List.mem_cons, hmem]
        constructor
        · rintro (rfl | ⟨hk, hlt⟩)
          · exact ⟨hlast, hpast⟩
          · exact ⟨hk, fun a ha => (hpast a ha).trans (hlt kv.1 rfl)⟩
        · rintro ⟨hk, hp⟩
          obtain ⟨found, hfound, hle⟩ := hspec.least k (last_isSome.mp (by rw [hk]; rfl)) hp
          obtain rfl := Option.some.inj hfound
          rcases hle.eq_or_lt with rfl | hlt
          · left
            rw [hlast] at hk
            rw [← Option.some.inj hk]
          · exact Or.inr ⟨hk, fun a ha => (Option.some.inj ha) ▸ hlt⟩

/-- How many keys the pairs have. -/
def count (pairs : List (K × V)) : Nat := (pairs.map Prod.fst).toFinset.card

theorem Kept.length {pairs l : List (K × V)} (h : Kept pairs l) : l.length = count pairs := by
  have hnodup : (l.map Prod.fst).Nodup := List.pairwise_map.mpr (h.ascending.imp fun hlt => hlt.ne)
  rw [count, ← List.length_map Prod.fst, ← List.toFinset_card_of_nodup hnodup]
  congr 1
  ext k
  rw [List.mem_toFinset, List.mem_toFinset, List.mem_map, ← last_isSome, Option.isSome_iff_exists]
  constructor
  · rintro ⟨⟨k, v⟩, hmem, rfl⟩
    exact ⟨v, (h.entries k v).mp hmem⟩
  · rintro ⟨v, hv⟩
    exact ⟨(k, v), (h.entries k v).mpr hv, rfl⟩

/-- A search with a turn for each key finds what is kept of the pairs, and goes on no longer. -/
theorem kept_search {next : Option K → Option (K × V)} {pairs : List (K × V)}
    (hnext : ∀ after, IsNext pairs after (next after)) {n : Nat} (hn : count pairs ≤ n) :
    Kept pairs (search next n none) := by
  have hcard : (remaining pairs none).card ≤ n := (Finset.card_filter_le _ _).trans hn
  obtain ⟨hasc, hmem⟩ := search_spec hnext n none hcard
  exact ⟨hasc, fun k v => by rw [hmem]; exact and_iff_left nofun⟩

end Keyed
