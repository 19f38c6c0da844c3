import Mathlib.Algebra.Group.Nat.Defs
import Mathlib.Data.Int.Notation

/-!
# Decoding value trees

A configuration file or a message is parsed to a tree of values (`Value`), and a type
is read from such a tree by a decoder. This file has the decoders derived code is made
of : scalars, options, lists, maps, enums whose variants are named by strings, and
structures read field by field from a table (`field`, `fieldD`, `fieldOpt`). A table is
read by key, so unknown keys are ignored and the order of the keys does not matter.

`optTable` builds a table of the keys that have a value, and `field_optTable`,
`fieldD_optTable` and `fieldOpt_optTable` read its fields back.
-/

namespace Serde

/-- A parsed document. -/
inductive Value
  | null
  | bool (b : Bool)
  | int (n : ℤ)
  | str (s : String)
  | seq (xs : List Value)
  | table (entries : List (String × Value))

inductive DecodeError
  | invalidType (expected : String)
  | invalidValue (expected : String)
  | missingField (field : String)
  | unknownVariant (variant : String)
deriving DecidableEq, Repr

abbrev Decoder (α : Type) := Value → Except DecodeError α

variable {α β : Type}

namespace Decoder

def bool : Decoder Bool
  | .bool b => .ok b
  | _ => .error (.invalidType "a boolean")

def str : Decoder String
  | .str s => .ok s
  | _ => .error (.invalidType "a string")

/-- A 64-bit `usize`. -/
def usize : Decoder ℕ
  | .int n => if 0 ≤ n ∧ n.toNat < 2 ^ 64 then .ok n.toNat else .error (.invalidValue "usize")
  | _ => .error (.invalidType "usize")

def option (d : Decoder α) : Decoder (Option α)
  | .null => .ok none
  | v => some <$> d v

/-- `d` on every element. -/
def elements (d : Decoder α) : List Value → Except DecodeError (List α)
  | [] => .ok []
  | v :: vs => do return (← d v) :: (← elements d vs)

def list (d : Decoder α) : Decoder (List α)
  | .seq xs => elements d xs
  | _ => .error (.invalidType "a sequence")

/-- `d` on the value of every entry. -/
def values (d : Decoder α) : List (String × Value) → Except DecodeError (List (String × α))
  | [] => .ok []
  | e :: es => do return (e.1, ← d e.2) :: (← values d es)

/-- The entries of a map, in the order of the document. -/
def map (d : Decoder α) : Decoder (List (String × α))
  | .table es => values d es
  | _ => .error (.invalidType "a map")

/-- A structure, read from the entries of a table. -/
def struct (d : List (String × Value) → Except DecodeError α) : Decoder α
  | .table es => d es
  | _ => .error (.invalidType "a table")

/-- An enum whose variants all are unit variants. -/
def unitVariants (names : List (String × α)) : Decoder α
  | .str s =>
    match names.lookup s with
    | some a => .ok a
    | none => .error (.unknownVariant s)
  | _ => .error (.invalidType "an enum")

/-- An enum with unit variants, and newtype variants written as a table of one key. -/
def variants (units : List (String × α)) (newtypes : List (String × Decoder α)) : Decoder α
  | .table [(name, payload)] =>
    match newtypes.lookup name with
    | some d => d payload
    | none => .error (.unknownVariant name)
  | v => unitVariants units v

end Decoder

/-! ## Fields of a table -/

/-- A field without a default. -/
def field (d : Decoder α) (es : List (String × Value)) (key : String) :
    Except DecodeError α :=
  match es.lookup key with
  | some v => d v
  | none => .error (.missingField key)

/-- A field with a default for a missing key. -/
def fieldD (d : Decoder α) (default : α) (es : List (String × Value)) (key : String) :
    Except DecodeError α :=
  match es.lookup key with
  | some v => d v
  | none => .ok default

/-- An optional field : a missing key is `none`. -/
def fieldOpt (d : Decoder α) (es : List (String × Value)) (key : String) :
    Except DecodeError (Option α) :=
  fieldD d.option none es key

/-! ## What a decoder that succeeds has read -/

theorem bind_eq_ok {ε : Type} {x : Except ε α} {f : α → Except ε β} {b : β} :
    x >>= f = .ok b ↔ ∃ a, x = .ok a ∧ f a = .ok b := by
  cases x with
  | error e => simp [bind, Except.bind]
  | ok a => simp [bind, Except.bind]

theorem map_eq_ok {ε : Type} {x : Except ε α} {f : α → β} {b : β} :
    f <$> x = .ok b ↔ ∃ a, x = .ok a ∧ f a = b := by
  cases x <;> simp [Functor.map, Except.map]

theorem then_eq_ok_iff {ε : Type} {x y : Except ε Unit} :
    (do x; y) = .ok () ↔ x = .ok () ∧ y = .ok () := by
  rw [bind_eq_ok]
  exact ⟨fun ⟨_, hx, hy⟩ => ⟨hx, hy⟩, fun h => ⟨(), h⟩⟩

theorem then_eq_error_iff {ε : Type} {x y : Except ε Unit} {e : ε} :
    (do x; y) = .error e ↔ x = .error e ∨ x = .ok () ∧ y = .error e := by
  cases x with
  | error e' => simp [bind, Except.bind]
  | ok u => simp [bind, Except.bind]

theorem fieldD_eq_ok {d : Decoder α} {default a : α} {es : List (String × Value)} {key : String}
    (h : fieldD d default es key = .ok a) : a = default ∨ ∃ v, d v = .ok a := by
  unfold fieldD at h
  split at h
  · exact Or.inr ⟨_, h⟩
  · exact Or.inl (Except.ok.inj h).symm

theorem fieldOpt_eq_some {d : Decoder α} {a : α} {es : List (String × Value)} {key : String}
    (h : fieldOpt d es key = .ok (some a)) : ∃ v, d v = .ok a := by
  obtain hnone | ⟨v, hv⟩ := fieldD_eq_ok h
  · cases hnone
  · unfold Decoder.option at hv
    split at hv
    · cases hv
    · obtain ⟨a', ha', hsome⟩ := map_eq_ok.mp hv
      exact ⟨_, Option.some_inj.mp hsome ▸ ha'⟩

theorem usize_lt {v : Value} {n : ℕ} (h : Decoder.usize v = .ok n) : n < 2 ^ 64 := by
  unfold Decoder.usize at h
  split at h
  · split at h
    · obtain rfl := Except.ok.inj h
      omega
    · cases h
  · cases h

theorem mem_of_lookup {γ : Type} {k : String} {c : γ} {es : List (String × γ)}
    (h : es.lookup k = some c) : (k, c) ∈ es := by
  obtain ⟨l₁, l₂, rfl, -⟩ := List.lookup_eq_some_iff.mp h
  simp

/-- A value of an enum is a unit variant, or the payload of a newtype variant. -/
theorem variants_eq_ok {units : List (String × α)} {newtypes : List (String × Decoder α)}
    {v : Value} {a : α} (h : Decoder.variants units newtypes v = .ok a) :
    a ∈ units.map Prod.snd ∨ ∃ d ∈ newtypes.map Prod.snd, ∃ payload, d payload = .ok a := by
  have hunit : ∀ {v}, Decoder.unitVariants units v = .ok a → a ∈ units.map Prod.snd := by
    intro v hv
    unfold Decoder.unitVariants at hv
    split at hv
    · split at hv
      · rename_i hl
        obtain rfl := Except.ok.inj hv
        exact List.mem_map_of_mem (mem_of_lookup hl)
      · cases hv
    · cases hv
  unfold Decoder.variants at h
  split at h
  · split at h
    · exact .inr ⟨_, List.mem_map_of_mem (mem_of_lookup ‹_›), _, h⟩
    · cases h
  · exact .inl (hunit h)

/-- The number in a variant of one number is of the type `usize`. -/
theorem newtype_usize_lt {units : List (String × α)} {name : String} {f : ℕ → α} {v : Value}
    {n : ℕ} (hf : Function.Injective f) (hunit : f n ∉ units.map Prod.snd)
    (h : Decoder.variants units [(name, fun v => f <$> Decoder.usize v)] v = .ok (f n)) :
    n < 2 ^ 64 := by
  obtain hmem | ⟨d, hd, payload, hpayload⟩ := variants_eq_ok h
  · exact absurd hmem hunit
  · rw [List.map_singleton, List.mem_singleton] at hd
    subst hd
    obtain ⟨m, hm, heq⟩ := map_eq_ok.mp hpayload
    exact hf heq ▸ usize_lt hm

/-! ## Building tables -/

/-- The table of the keys that have a value. -/
def optTable (es : List (String × Option Value)) : List (String × Value) :=
  es.filterMap fun e => e.2.map (e.1, ·)

theorem optTable_cons (e : String × Option Value) (es : List (String × Option Value)) :
    optTable (e :: es) = (e.2.map (e.1, ·)).toList ++ optTable es := by
  obtain ⟨key, v⟩ := e
  cases v <;> rfl

theorem lookup_cons_of_ne {γ : Type} {k key : String} (c : γ) (es : List (String × γ))
    (h : k ≠ key) : List.lookup k ((key, c) :: es) = es.lookup k := by
  rw [List.lookup_cons, beq_false_of_ne h]

theorem lookup_optTable_of_notMem {k : String} :
    ∀ {es : List (String × Option Value)}, k ∉ es.map Prod.fst → (optTable es).lookup k = none
  | [], _ => rfl
  | (key, v) :: es, hk => by
    rw [List.map_cons, List.mem_cons, not_or] at hk
    have ih := lookup_optTable_of_notMem hk.2
    rw [optTable_cons]
    cases v with
    | none => exact ih
    | some v => exact (lookup_cons_of_ne v (optTable es) hk.1).trans ih

/-- With distinct keys, a key of the table has the value it was given. -/
theorem lookup_optTable {k : String} {v : Option Value} :
    ∀ {es : List (String × Option Value)}, (es.map Prod.fst).Nodup → es.lookup k = some v →
      (optTable es).lookup k = v
  | [], _, hk => by cases hk
  | (key, w) :: es, hn, hk => by
    rw [List.map_cons, List.nodup_cons] at hn
    rw [optTable_cons]
    by_cases h : k = key
    · subst h
      rw [List.lookup_cons_self, Option.some_inj] at hk
      subst hk
      cases w with
      | none => exact lookup_optTable_of_notMem hn.1
      | some w => exact List.lookup_cons_self
    · rw [lookup_cons_of_ne w es h] at hk
      have ih := lookup_optTable hn.2 hk
      cases w with
      | none => exact ih
      | some w => exact (lookup_cons_of_ne w (optTable es) h).trans ih

/-! ## Decoding what was built -/

@[simp] theorem decode_elements_str (xs : List String) :
    Decoder.elements Decoder.str (xs.map .str) = .ok xs := by
  induction xs with
  | nil => rfl
  | cons x xs ih => simp [Decoder.elements, ih, Decoder.str]; rfl

@[simp] theorem decode_values_str (kvs : List (String × String)) :
    Decoder.values Decoder.str (kvs.map fun kv => (kv.1, .str kv.2)) = .ok kvs := by
  induction kvs with
  | nil => rfl
  | cons kv kvs ih => simp [Decoder.values, ih, Decoder.str]; rfl

theorem decode_usize {n : ℕ} (h : n < 2 ^ 64) : Decoder.usize (.int n) = .ok n := by
  simp [Decoder.usize]
  omega

/-- A value that is not null is read as a present option. -/
theorem option_of_ne_null {d : Decoder α} {v : Value} {a : α} (hv : v ≠ .null)
    (hd : d v = .ok a) : d.option v = .ok (some a) := by
  unfold Decoder.option
  split
  · exact absurd rfl hv
  · rw [hd]
    rfl

theorem fieldOpt_of_lookup {d : Decoder α} {es : List (String × Value)} {key : String}
    {v : Value} {o : Option α} (hl : es.lookup key = some v) (hd : d.option v = .ok o) :
    fieldOpt d es key = .ok o := by
  rw [fieldOpt, fieldD, hl]
  exact hd

theorem field_of_lookup {d : Decoder α} {es : List (String × Value)} {key : String}
    {v : Value} {a : α} (hl : es.lookup key = some v) (hd : d v = .ok a) :
    field d es key = .ok a := by
  rw [field, hl]
  exact hd

/-! Fields of a table built with distinct keys. -/

section OptTable

variable {es : List (String × Option Value)} {key : String}

theorem field_optTable {d : Decoder α} {v : Value} {a : α} (hn : (es.map Prod.fst).Nodup)
    (hl : es.lookup key = some (some v)) (hd : d v = .ok a) :
    field d (optTable es) key = .ok a :=
  field_of_lookup (lookup_optTable hn hl) hd

/-- A key that is there when `o` has a value reads back as that value, or the default. -/
theorem fieldD_optTable {d : Decoder α} {dflt : α} {enc : β → Value} {f : β → α}
    {o : Option β} (hn : (es.map Prod.fst).Nodup) (hl : es.lookup key = some (o.map enc))
    (hd : ∀ b ∈ o, d (enc b) = .ok (f b)) :
    fieldD d dflt (optTable es) key = .ok ((o.map f).getD dflt) := by
  rw [fieldD, lookup_optTable hn hl]
  cases o with
  | none => rfl
  | some b => exact hd b rfl

theorem fieldOpt_optTable {d : Decoder α} {enc : α → Value} {o : Option α}
    (hn : (es.map Prod.fst).Nodup) (hl : es.lookup key = some (o.map enc))
    (hd : ∀ a ∈ o, d (enc a) = .ok a) (hnull : ∀ a, enc a ≠ .null) :
    fieldOpt d (optTable es) key = .ok o := by
  have hopt : ∀ a ∈ o, d.option (enc a) = .ok (some a) := fun a ha =>
    option_of_ne_null (hnull a) (hd a ha)
  rw [fieldOpt, fieldD_optTable hn hl hopt]
  cases o <;> rfl

end OptTable

end Serde
