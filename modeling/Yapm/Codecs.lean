import Yapm.Serde

/-!
# Types that are written and read

A `Codec` has both directions of a type, as derived code has them, and `Fits`, the values that
are read back as they are. Codecs are made of codecs : options, lists, pairs and maps of a
codec, and structures and enums, whose fields and payloads have codecs of their own.

A structure is a table with a key for each field, and `Codec.field` and `Codec.fieldOpt` read
a field back from any table that has it. A variant with a payload is a table of one key
(`tagged`), one without is a string.
-/

namespace Serde

variable {α β : Type}

structure Codec (α : Type) where
  encode : α → Value
  decode : Decoder α
  /-- The value is read back as it is. -/
  Fits : α → Prop
  decode_encode : ∀ {a : α}, Fits a → decode (encode a) = .ok a

namespace Codec

/-! ## Scalars -/

def bool : Codec Bool where
  encode := .bool
  decode := Decoder.bool
  Fits _ := True
  decode_encode _ := rfl

def str : Codec String where
  encode := .str
  decode := Decoder.str
  Fits _ := True
  decode_encode _ := rfl

def usize : Codec ℕ where
  encode n := .int n
  decode := Decoder.usize
  Fits n := n < 2 ^ 64
  decode_encode := decode_usize

/-- A 32-bit signed number. -/
def i32 : Codec ℤ where
  encode := .int
  decode
    | .int n =>
      if -2147483648 ≤ n ∧ n < 2147483648 then .ok n else .error (.invalidValue "i32")
    | _ => .error (.invalidType "i32")
  Fits n := -2147483648 ≤ n ∧ n < 2147483648
  decode_encode h := if_pos h

theorem i32_fits {n : ℕ} (h : n < 2 ^ 31) : i32.Fits n :=
  ⟨by omega, by omega⟩

theorem str_ne_null (s : String) : str.encode s ≠ .null := by
  simp [str]

theorem usize_ne_null (n : ℕ) : usize.encode n ≠ .null := by
  simp [usize]

/-- An enum whose variants all are unit variants. -/
def units (names : List (String × α)) (name : α → String)
    (h : ∀ a, names.lookup (name a) = some a) : Codec α where
  encode a := .str (name a)
  decode := Decoder.unitVariants names
  Fits _ := True
  decode_encode {a} _ := by simp [Decoder.unitVariants, h a]

/-! ## Of other codecs -/

variable (c : Codec α)

def encodeOption : Option α → Value
  | none => .null
  | some a => c.encode a

theorem decode_encodeOption (hnull : ∀ a, c.encode a ≠ .null) {o : Option α}
    (h : ∀ a ∈ o, c.Fits a) : c.decode.option (c.encodeOption o) = .ok o := by
  cases o with
  | none => rfl
  | some a => exact option_of_ne_null (hnull a) (c.decode_encode (h a rfl))

theorem decode_elements {as : List α} (h : ∀ a ∈ as, c.Fits a) :
    Decoder.elements c.decode (as.map c.encode) = .ok as := by
  induction as with
  | nil => rfl
  | cons a as ih =>
    rw [List.map_cons, Decoder.elements, c.decode_encode (h a (.head _)),
      ih fun b hb => h b (.tail _ hb)]
    rfl

def list : Codec (List α) where
  encode as := .seq (as.map c.encode)
  decode := Decoder.list c.decode
  Fits as := ∀ a ∈ as, c.Fits a
  decode_encode := c.decode_elements

theorem decode_values {kvs : List (String × α)} (h : ∀ kv ∈ kvs, c.Fits kv.2) :
    Decoder.values c.decode (kvs.map fun kv => (kv.1, c.encode kv.2)) = .ok kvs := by
  induction kvs with
  | nil => rfl
  | cons kv kvs ih =>
    rw [List.map_cons, Decoder.values, c.decode_encode (h kv (.head _)),
      ih fun kv' hkv' => h kv' (.tail _ hkv')]
    rfl

/-- The entries of a map, in the order they are written in. -/
def map : Codec (List (String × α)) where
  encode kvs := .table (kvs.map fun kv => (kv.1, c.encode kv.2))
  decode := Decoder.map c.decode
  Fits kvs := ∀ kv ∈ kvs, c.Fits kv.2
  decode_encode := c.decode_values

/-- A pair is a sequence of two. -/
def pair (d : Codec β) : Codec (α × β) where
  encode p := .seq [c.encode p.1, d.encode p.2]
  decode
    | .seq [v, w] => do return (← c.decode v, ← d.decode w)
    | _ => .error (.invalidType "a tuple of size 2")
  Fits p := c.Fits p.1 ∧ d.Fits p.2
  decode_encode {p} h := by
    simp only [c.decode_encode h.1, d.decode_encode h.2]
    rfl

/-- A type that is written as another. -/
def via (d : Codec β) (f : α → β) (g : β → α) (h : ∀ a, g (f a) = a) : Codec α where
  encode a := d.encode (f a)
  decode v := g <$> d.decode v
  Fits a := d.Fits (f a)
  decode_encode {a} ha := by
    rw [d.decode_encode ha]
    exact congrArg Except.ok (h a)

/-! ## Fields -/

variable {c} {es : List (String × Value)} {key : String}

theorem field {a : α} (h : c.Fits a) (hl : es.lookup key = some (c.encode a)) :
    Serde.field c.decode es key = .ok a :=
  field_of_lookup hl (c.decode_encode h)

theorem fieldOpt {o : Option α} (hnull : ∀ a, c.encode a ≠ .null) (h : ∀ a ∈ o, c.Fits a)
    (hl : es.lookup key = some (c.encodeOption o)) : Serde.fieldOpt c.decode es key = .ok o :=
  fieldOpt_of_lookup hl (c.decode_encodeOption hnull h)

/-- A structure with one field. -/
def single (c : Codec α) (key : String) : Codec α where
  encode a := .table [(key, c.encode a)]
  decode := Decoder.struct fun es => Serde.field c.decode es key
  Fits := c.Fits
  decode_encode h := field h List.lookup_cons_self

end Codec

/-! ## Variants -/

/-- A variant with a payload. -/
def tagged (name : String) (payload : Value) : Value :=
  .table [(name, payload)]

variable {units : List (String × α)} {newtypes : List (String × Decoder α)} {name : String}

theorem decode_tagged {d : Decoder α} (h : newtypes.lookup name = some d) (payload : Value) :
    Decoder.variants units newtypes (tagged name payload) = d payload := by
  simp [Decoder.variants, tagged, h]

theorem decode_unit {a : α} (h : units.lookup name = some a) :
    Decoder.variants units newtypes (.str name) = .ok a := by
  simp [Decoder.variants, Decoder.unitVariants, h]

/-- A variant is read by the codec of its payload. -/
theorem decode_newtype {c : Codec β} {f : β → α} {b : β} (hb : c.Fits b)
    (h : newtypes.lookup name = some fun v => f <$> c.decode v) :
    Decoder.variants units newtypes (tagged name (c.encode b)) = .ok (f b) := by
  rw [decode_tagged h, c.decode_encode hb]
  rfl

end Serde
