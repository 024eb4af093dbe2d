import JsWaku.MessageHash
import JsWaku.Proto.Runtime

/-!
# A runtime

The format that `protons-runtime` implements, as a `Runtime`: varints of at most ten bytes, zigzag numbers, UTF-8 texts.
It is lawful (`wireFormat_lawful`).
-/

namespace JsWaku.Proto

open Reading Protobuf MessageHash

/-- `utf8.read`. -/
def readUtf8 (bytes : Bytes) : String := (String.fromUTF8? ⟨bytes.toArray⟩).getD ""

theorem readUtf8_utf8ToBytes (s : String) : readUtf8 (utf8ToBytes s) = s := by
  have hvalid : (⟨(utf8ToBytes s).toArray⟩ : ByteArray).IsValidUTF8 := by simpa [utf8ToBytes] using s.isValidUTF8
  simp only [readUtf8, String.fromUTF8?, dif_pos hvalid, Option.getD_some]
  simp only [utf8ToBytes, Array.toArray_toList]
  rfl

/-- `findValue` of an enumeration of `n` members. -/
def findValue (n value : ℕ) : Reading.Reader JsError (Fin n) :=
  if h : value < n then return ⟨value, h⟩ else fail (.error "Invalid enum value")

theorem reads_findValue {n : ℕ} (member : Fin n) : Reads (findValue n member) [] member := by
  rw [findValue, dif_pos member.isLt]
  exact Reads.pure member

theorem forward_findValue (n value : ℕ) : Forward (findValue n value) := by
  unfold findValue
  split
  · exact Forward.pure _
  · exact forward_fail _

/-- The writers of the format. -/
def wireFormat.w : Writer where
  uint32 := writeVarint 9
  uint64 := writeVarint 9
  sint64 v := writeVarint 9 (zigzag v)
  bool b := writeVarint 9 b.toNat
  bytes := delimited 9
  string s := delimited 9 (utf8ToBytes s)
  enumeration _ member := writeVarint 9 member
  ldelim := delimited 9

/-- The readers of the format. -/
def wireFormat.reader : Reader where
  uint32 := readVarint .rangeError 9
  uint64 := readVarint .rangeError 9
  sint64 := do return unzigzag (← readVarint .rangeError 9)
  bool := do return (← readVarint .rangeError 9) != 0
  bytes := readDelimited .rangeError 9
  string := do return readUtf8 (← readDelimited .rangeError 9)
  enumeration n := do findValue n (← readVarint .rangeError 9)
  skipType
    | 0 => do
      let _ ← readVarint .rangeError 9
      return ()
    | 1 => do
      let _ ← take .rangeError 8
      return ()
    | 2 => do
      let _ ← readDelimited .rangeError 9
      return ()
    | 5 => do
      let _ ← take .rangeError 4
      return ()
    | _ => fail (.error "invalid wire type")

/-- The runtime of the format. -/
def wireFormat : Runtime := ⟨wireFormat.w, wireFormat.reader⟩

/-- Short bytes after their length are read. -/
theorem reads_delimited_of_short {bs : Bytes} (h : Short (delimited 9 bs)) :
    Reads (readDelimited JsError.rangeError 9) (delimited 9 bs) bs :=
  reads_delimited _ 9 (h.right.trans (by decide))

theorem reads_sint64 {v : ℤ} (hmin : -2 ^ 63 ≤ v) (hmax : v < 2 ^ 63) :
    Reads (readVarint JsError.rangeError 9) (writeVarint 9 (zigzag v)) (zigzag v) :=
  reads_varint _ 9 ((zigzag_lt hmin hmax).trans (by decide))

theorem wireFormat_lawful : wireFormat.Lawful where
  uint32 n h := reads_varint _ 9 (h.trans (by decide))
  uint64 n h := reads_varint _ 9 (h.trans (by decide))
  sint64 v hmin hmax := by
    have hmap := (reads_sint64 hmin hmax).map unzigzag
    rwa [unzigzag_zigzag] at hmap
  bool b := by
    have hmap := (reads_varint JsError.rangeError 9 (n := b.toNat) (by cases b <;> decide)).map (· != 0)
    rwa [show (b.toNat != 0) = b by cases b <;> rfl] at hmap
  bytes bs h := reads_delimited_of_short h
  string s h := by
    have hmap := (reads_delimited_of_short h).map readUtf8
    rwa [readUtf8_utf8ToBytes] at hmap
  enumeration n hn member := by
    have hvalue := reads_varint JsError.rangeError 9 (n := member) (member.isLt.trans_le (hn.trans (by decide)))
    have hbind := hvalue.bind (f := findValue n) (reads_findValue member)
    rwa [List.append_nil] at hbind
  ldelim bs _ := rfl
  skip_uint32 n h := (reads_varint _ 9 (h.trans (by decide))).map _
  skip_uint64 n h := (reads_varint _ 9 (h.trans (by decide))).map _
  skip_sint64 v hmin hmax := (reads_sint64 hmin hmax).map _
  skip_bool b := (reads_varint _ 9 (by cases b <;> decide)).map _
  skip_fixed64 bs h := (reads_take _ h.symm).map _
  skip_bytes bs h := (reads_delimited_of_short h).map _
  skip_string s h := (reads_delimited_of_short h).map _
  skip_ldelim bs h := (reads_delimited_of_short h).map _
  skip_fixed32 bs h := (reads_take _ h.symm).map _
  progress_uint32 := progress_varint _ 9
  forward_uint64 := (progress_varint _ 9).forward
  forward_sint64 := (progress_varint _ 9).forward.bind fun _ => Forward.pure _
  forward_bool := (progress_varint _ 9).forward.bind fun _ => Forward.pure _
  forward_bytes := forward_delimited _ 9
  forward_string := (forward_delimited _ 9).bind fun _ => Forward.pure _
  forward_enumeration n := (progress_varint _ 9).forward.bind (forward_findValue n)
  forward_skipType wireType := by
    simp only [wireFormat, wireFormat.reader]
    split
    · exact (progress_varint _ 9).forward.bind fun _ => Forward.pure _
    · exact (forward_take _ 8).bind fun _ => Forward.pure _
    · exact (forward_delimited _ 9).bind fun _ => Forward.pure _
    · exact (forward_take _ 4).bind fun _ => Forward.pure _
    · exact forward_fail _

end JsWaku.Proto
