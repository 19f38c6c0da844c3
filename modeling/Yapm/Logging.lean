import Mathlib.Data.Int.Notation
import Yapm.Utf8

/-!
# Log entries

`LogEntry.toFstring` is the line a stream's file gets for one line of output.
`LogManager` is the buffer of the last hundred entries that all processes share.
Timestamps are read from the clock when an entry is made, so they are an input here.
-/

namespace Yapm

/-- Months, displayed by their English names. -/
inductive Month
  | january | february | march | april | may | june
  | july | august | september | october | november | december
deriving DecidableEq, Repr

def Month.display : Month → String
  | .january => "January"
  | .february => "February"
  | .march => "March"
  | .april => "April"
  | .may => "May"
  | .june => "June"
  | .july => "July"
  | .august => "August"
  | .september => "September"
  | .october => "October"
  | .november => "November"
  | .december => "December"

/-- What an entry shows of the clock. -/
structure Timestamp where
  hour : ℕ
  minute : ℕ
  second : ℕ
  day : ℕ
  month : Month
  year : ℤ
deriving DecidableEq, Repr

inductive LogType
  | stdout
  | stderr
  | yapmErr
  | yapmLog
  | yapmWarning
deriving DecidableEq, Repr

def LogType.asStr : LogType → String
  | .stdout => "Outstream"
  | .stderr => "Errstream"
  | .yapmErr => "Yapm-Err"
  | .yapmLog => "Yapm-Log"
  | .yapmWarning => "Yapm-Warn"

structure LogEntry where
  ty : LogType
  timestamp : Timestamp
  msg : String
deriving DecidableEq, Repr

/-- `{:02}` of a number. -/
def pad2 (n : ℕ) : String :=
  if n < 10 then "0" ++ toString n else toString n

/-- The line written to the log file, newline included. -/
def LogEntry.toFstring (e : LogEntry) : String :=
  e.ty.asStr ++ " [" ++ toString e.timestamp.hour ++ ":" ++ pad2 e.timestamp.minute ++ ":" ++
    pad2 e.timestamp.second ++ ", " ++ toString e.timestamp.day ++ "-" ++
    e.timestamp.month.display ++ "-" ++ toString e.timestamp.year ++ "] " ++ e.msg ++ "\n"

/-- `as_bytes` of a string. -/
def asBytes (s : String) : List UInt8 :=
  s.toUTF8.toList

theorem toList_loop_eq (b : ByteArray) (i : ℕ) (r : List UInt8) :
    ByteArray.toList.loop b i r = r.reverse ++ b.data.toList.drop i := by
  fun_induction ByteArray.toList.loop b i r with
  | case1 i r h ih =>
    have hi : i < b.data.toList.length := h
    rw [ih, List.drop_eq_getElem_cons hi, List.reverse_cons, List.append_assoc,
      List.singleton_append]
    simp [ByteArray.get!, h]
  | case2 i r h =>
    have hi : b.data.toList.length ≤ i := Nat.le_of_not_lt h
    rw [List.drop_eq_nil_of_le hi, List.append_nil]

theorem asBytes_eq (s : String) : asBytes s = s.toUTF8.data.toList :=
  toList_loop_eq s.toUTF8 0 []

theorem asBytes_eq_encode (s : String) : asBytes s = Utf8.encode s.toList := by
  rw [asBytes_eq]
  conv_lhs => rw [← String.ofList_toList (s := s)]
  rw [String.toUTF8_eq_toByteArray, String.toByteArray_ofList, List.utf8Encode,
    List.toList_data_toByteArray, Utf8.encode]

theorem decode_asBytes (s : String) : Utf8.decode (asBytes s) = some s := by
  have hbytes : (asBytes s).toByteArray = s.toUTF8 := by
    rw [asBytes_eq]
    exact ByteArray.ext List.data_toByteArray
  rw [Utf8.decode, hbytes]
  simp only [String.fromUTF8?, String.toUTF8_eq_toByteArray, dif_pos s.isValidUTF8]
  rfl

/-- Bytes decode to a string exactly when they are its bytes. -/
theorem decode_eq_some_iff {b : List UInt8} {s : String} :
    Utf8.decode b = some s ↔ b = asBytes s := by
  refine ⟨fun h => ?_, fun h => h ▸ decode_asBytes s⟩
  have hvalid : Utf8.Valid b := Utf8.decode_isSome_iff.mp (by rw [h, Option.isSome_some])
  obtain ⟨cs, rfl⟩ := Utf8.valid_iff.mp hvalid
  have hcs : asBytes (String.ofList cs) = Utf8.encode cs := by
    rw [asBytes_eq_encode, String.toList_ofList]
  rw [← hcs, decode_asBytes, Option.some_inj] at h
  rw [← hcs, h]

theorem asBytes_inj {s t : String} : asBytes s = asBytes t ↔ s = t := by
  rw [← decode_eq_some_iff, decode_asBytes, Option.some_inj]

theorem asBytes_append (s t : String) : asBytes (s ++ t) = asBytes s ++ asBytes t := by
  simp [asBytes_eq, String.toByteArray_append]

theorem asBytes_asStr_ne_nil (ty : LogType) : asBytes ty.asStr ≠ [] := by
  rw [asBytes_eq]
  cases ty <;> decide +kernel

/-- The first byte written for an entry is up to its type. -/
theorem head?_asBytes_toFstring (e : LogEntry) (rest : List UInt8) :
    (asBytes e.toFstring ++ rest).head? = (asBytes e.ty.asStr).head? := by
  delta LogEntry.toFstring
  simp only [String.append_assoc, asBytes_append, List.head?_append,
    List.head?_eq_some_head (asBytes_asStr_ne_nil e.ty), Option.some_or]

theorem asBytes_toFstring_ne_nil (e : LogEntry) : asBytes e.toFstring ≠ [] := by
  intro h
  have hhead := head?_asBytes_toFstring e []
  rw [h, List.append_nil, List.head?_nil, eq_comm, List.head?_eq_none_iff] at hhead
  exact asBytes_asStr_ne_nil e.ty hhead

/-- Capacity of the shared buffer. -/
def LogManager.capacity : ℕ := 100

/-- The shared buffer, oldest entry first. -/
structure LogManager where
  glv : List LogEntry
deriving DecidableEq, Repr

/-- `push_back` on the circular buffer : a full buffer drops its oldest entry. -/
def LogManager.push (m : LogManager) (entry : LogEntry) : LogManager :=
  ⟨(m.glv ++ [entry]).drop (m.glv.length + 1 - capacity)⟩

end Yapm
