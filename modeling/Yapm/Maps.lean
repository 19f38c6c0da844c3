import Mathlib.Data.Finmap

/-!
# Maps as lists of pairs

A map walked in some order is a list of its pairs (`Walks`), each key once. A list of
pairs put into a map, one after the other (`extend`), leaves a key with the value of its
last pair, and a walk of a map put into another map is their union (`extend_walk`).

Looking up the keys of a list and counting those that are found counts entries of the map
when no key is listed twice (`found_add_hidden`), and on some maps too many when one is
(`found_le_size_iff`).
-/

namespace Maps

variable {κ ν : Type*} [DecidableEq κ]

/-! ## Pairs -/

section Pairs

omit [DecidableEq κ] in
/-- The pairs of a map, in an order of their own. -/
def Walks (m : Finmap fun _ : κ => ν) (kvs : List (κ × ν)) : Prop :=
  m.entries = (kvs.map fun kv => (⟨kv.1, kv.2⟩ : Σ _ : κ, ν) : List (Σ _ : κ, ν))

variable {m : Finmap fun _ : κ => ν} {kvs : List (κ × ν)}

instance [DecidableEq ν] : Decidable (Walks m kvs) :=
  inferInstanceAs (Decidable (m.entries = _))

/-- The pairs of a walk are those of the map. -/
theorem Walks.mem_iff (h : Walks m kvs) {k : κ} {v : ν} :
    (k, v) ∈ kvs ↔ m.lookup k = some v := by
  rw [Finmap.lookup_eq_some_iff, h, Multiset.mem_coe, List.mem_map]
  constructor
  · intro hkv
    exact ⟨(k, v), hkv, rfl⟩
  · rintro ⟨⟨k', v'⟩, hkv, heq⟩
    cases heq
    exact hkv

omit [DecidableEq κ] in
/-- A walk comes to each key once. -/
theorem Walks.nodup (h : Walks m kvs) : (kvs.map Prod.fst).Nodup := by
  have hkeys := m.nodupKeys
  rw [h, Multiset.coe_nodupKeys, List.NodupKeys, List.keys, List.map_map] at hkeys
  exact hkeys

/-- The keys of a walk are those of the map. -/
theorem Walks.mem_keys_iff (h : Walks m kvs) {k : κ} : k ∈ kvs.map Prod.fst ↔ k ∈ m := by
  rw [Finmap.mem_iff, List.mem_map]
  constructor
  · rintro ⟨⟨k, v⟩, hkv, rfl⟩
    exact ⟨v, h.mem_iff.mp hkv⟩
  · rintro ⟨v, hv⟩
    exact ⟨(k, v), h.mem_iff.mpr hv, rfl⟩

omit [DecidableEq κ] in
/-- Some entry of the map has a property when some pair of a walk has it. -/
theorem Walks.any_eq (h : Walks m kvs) (p : κ → ν → Bool) :
    m.any p = kvs.any fun kv => p kv.1 kv.2 := by
  have hor : ∀ (kvs : List (κ × ν)) (b : Bool),
      kvs.foldl (fun b kv => b || p kv.1 kv.2) b = (b || kvs.any fun kv => p kv.1 kv.2) := by
    intro kvs
    induction kvs with
    | nil => simp
    | cons kv kvs ih => simp [ih, Bool.or_assoc]
  rw [Finmap.any, Finmap.foldl, h, Multiset.coe_foldl, List.foldl_map]
  exact hor kvs false

end Pairs

/-! ## Insertion -/

section Insertion

/-- Put pairs into a map, one after the other. -/
def extend (m : Finmap fun _ : κ => ν) (kvs : List (κ × ν)) : Finmap fun _ : κ => ν :=
  kvs.foldl (fun m kv => m.insert kv.1 kv.2) m

variable {m m' : Finmap fun _ : κ => ν} {kvs : List (κ × ν)} {k : κ}

@[simp] theorem extend_nil : extend m [] = m := rfl

@[simp] theorem extend_cons (kv : κ × ν) :
    extend m (kv :: kvs) = extend (m.insert kv.1 kv.2) kvs := rfl

theorem extend_append (kvs kvs' : List (κ × ν)) :
    extend m (kvs ++ kvs') = extend (extend m kvs) kvs' :=
  List.foldl_append ..

/-- A key without a pair keeps its value. -/
theorem lookup_extend_of_notMem : ∀ {kvs : List (κ × ν)} {m : Finmap fun _ : κ => ν},
    k ∉ kvs.map Prod.fst → (extend m kvs).lookup k = m.lookup k
  | [], _, _ => rfl
  | (k', v') :: kvs, m, h => by
    rw [List.map_cons, List.mem_cons, not_or] at h
    rw [extend_cons, lookup_extend_of_notMem h.2, Finmap.lookup_insert_of_ne _ h.1]

/-- A key has the value of its last pair. -/
theorem lookup_extend_last (kvs : List (κ × ν)) (v : ν) {kvs' : List (κ × ν)}
    (h : k ∉ kvs'.map Prod.fst) : (extend m (kvs ++ (k, v) :: kvs')).lookup k = some v := by
  rw [extend_append, extend_cons, lookup_extend_of_notMem h, Finmap.lookup_insert]

theorem mem_extend : ∀ {kvs : List (κ × ν)} {m : Finmap fun _ : κ => ν},
    k ∈ extend m kvs ↔ k ∈ kvs.map Prod.fst ∨ k ∈ m
  | [], m => by simp
  | (k', v') :: kvs, m => by
    rw [extend_cons, mem_extend, Finmap.mem_insert, List.map_cons, List.mem_cons,
      or_left_comm, or_assoc]

/-- What is there was put in or was there before. -/
theorem mem_or_of_lookup_extend {v : ν} : ∀ {kvs : List (κ × ν)} {m : Finmap fun _ : κ => ν},
    (extend m kvs).lookup k = some v → (k, v) ∈ kvs ∨ m.lookup k = some v
  | [], _, h => .inr h
  | (k', v') :: kvs, m, h => by
    rw [extend_cons] at h
    rcases mem_or_of_lookup_extend h with hkv | hinsert
    · exact .inl (.tail _ hkv)
    · by_cases hk : k = k'
      · subst hk
        rw [Finmap.lookup_insert, Option.some_inj] at hinsert
        exact .inl (List.mem_cons.mpr (.inl (by rw [← hinsert])))
      · exact .inr (by rwa [Finmap.lookup_insert_of_ne _ hk] at hinsert)

/-- Pairs with distinct keys are all there. -/
theorem lookup_extend_of_nodup {v : ν} (h : (kvs.map Prod.fst).Nodup)
    (hkv : (k, v) ∈ kvs) : (extend m kvs).lookup k = some v := by
  obtain ⟨kvs₁, kvs₂, rfl⟩ := List.append_of_mem hkv
  rw [List.map_append, List.map_cons, List.nodup_append] at h
  exact lookup_extend_last kvs₁ v (List.nodup_cons.mp h.2.1).1

/-- A walk of a map put into another map is their union, whatever its order. -/
theorem extend_walk (h : Walks m kvs) : extend m' kvs = m ∪ m' := by
  refine Finmap.ext_lookup fun k => ?_
  by_cases hk : k ∈ m
  · obtain ⟨v, hv⟩ := Finmap.mem_iff.mp hk
    rw [Finmap.lookup_union_left hk, hv]
    exact lookup_extend_of_nodup h.nodup (h.mem_iff.mpr hv)
  · rw [Finmap.lookup_union_right hk]
    exact lookup_extend_of_notMem fun hmem => hk (h.mem_keys_iff.mp hmem)

end Insertion

/-! ## Counting -/

section Counting

/-- The number of entries. -/
def size (m : Finmap fun _ : κ => ν) : ℕ :=
  Multiset.card m.entries

/-- The listed keys the map has, as often as they are listed. -/
def found (keys : List κ) (m : Finmap fun _ : κ => ν) : ℕ :=
  (keys.filter (· ∈ m)).length

/-- The entries of the map whose key is not listed. -/
def hidden (keys : List κ) (m : Finmap fun _ : κ => ν) : ℕ :=
  m.entries.countP fun e => e.1 ∉ keys

variable (m : Finmap fun _ : κ => ν) {keys : List κ}

omit [DecidableEq κ] in
theorem size_eq_card_keys : size m = m.keys.card :=
  (Multiset.card_map _ _).symm

theorem hidden_eq_card : hidden keys m = (m.keys.filter (· ∉ keys)).card := by
  have hkeys : m.keys.val = m.entries.map Sigma.fst := rfl
  rw [hidden, Finset.card_def, Finset.filter_val, ← Multiset.countP_eq_card_filter, hkeys,
    Multiset.countP_map, Multiset.countP_eq_card_filter]

/-- The number of distinct keys found. -/
theorem found_eq_card (h : keys.Nodup) : found keys m = (m.keys.filter (· ∈ keys)).card := by
  have hset : m.keys.filter (· ∈ keys) = (keys.filter (· ∈ m)).toFinset := by
    ext k
    simp [Finmap.mem_keys, and_comm]
  rw [hset, List.toFinset_card_of_nodup (h.filter _), found]

/-- The keys found and the entries without a listed key are all entries. -/
theorem found_add_hidden (h : keys.Nodup) : found keys m + hidden keys m = size m := by
  rw [found_eq_card m h, hidden_eq_card, size_eq_card_keys]
  exact Finset.card_filter_add_card_filter_not _

/-- The keys found are no more than the entries of any map when no key is listed twice,
and only then. -/
theorem found_le_size_iff [Nonempty ν] :
    (∀ m : Finmap fun _ : κ => ν, found keys m ≤ size m) ↔ keys.Nodup := by
  constructor
  · intro h
    obtain ⟨v⟩ := ‹Nonempty ν›
    -- A map with the listed keys and no others.
    let m := extend ∅ (keys.map fun k => (k, v))
    have hmem (k : κ) : k ∈ m ↔ k ∈ keys := by
      simp [m, mem_extend, Finmap.notMem_empty]
    have hfound : found keys m = keys.length := by
      rw [found, List.filter_eq_self.mpr fun k hk => decide_eq_true ((hmem k).mpr hk)]
    have hsize : size m = keys.dedup.length := by
      rw [size_eq_card_keys, ← List.card_toFinset]
      congr 1
      ext k
      rw [Finmap.mem_keys, hmem, List.mem_toFinset]
    have hle := h m
    rw [hfound, hsize] at hle
    exact List.dedup_eq_self.mp ((List.dedup_sublist keys).eq_of_length_le hle)
  · intro h m
    rw [← found_add_hidden m h]
    exact Nat.le_add_right _ _

end Counting

end Maps
