import EditorScript.Number.Layout

/-!
# Text in files

Files hold text in UTF-8.  Reading stops at the first byte sequence that stands
for no character; the longest start of a character found there is what the
report is about.  Every kind of line end is read as a newline.
-/

namespace EditorScript

/-- What is wrong with a sequence of bytes. -/
inductive Utf8Fault where
  | start | continuation | ended
deriving DecidableEq, Repr

/-- The bytes from `position` on, `length` of them, stand for no character; the
first one is `byte`. -/
structure Utf8Error where
  fault : Utf8Fault
  position : Nat
  length : Nat
  byte : UInt8
deriving DecidableEq, Repr

/-- The words for what is wrong. -/
def Utf8Fault.message : Utf8Fault → Text
  | .start => "invalid start byte"
  | .continuation => "invalid continuation byte"
  | .ended => "unexpected end of data"

/-- The report of bytes that stand for no character. -/
def Utf8Error.message (error : Utf8Error) : Text :=
  let bytes : Text :=
    if error.length = 1 then
      "byte 0x" ++ (Nat.toDigits 16 error.byte.toNat).leftpad 2 '0' ++ " in position " ++
        natText error.position
    else
      "bytes in position " ++ natText error.position ++ "-" ++
        natText (error.position + error.length - 1)
  "'utf-8' codec can't decode " ++ bytes ++ ": " ++ error.fault.message

/-- What the first byte of a character tells: how many bytes follow, the first
bits of its number, and between which values the second byte lies. -/
structure Utf8Lead where
  following : Nat
  bits : Nat
  low : Nat := 0x80
  high : Nat := 0xbf
deriving DecidableEq, Repr

/-- What a byte tells as the first one of a character. -/
def utf8Lead? (byte : Nat) : Option Utf8Lead :=
  if byte < 0x80 then some { following := 0, bits := byte }
  else if byte < 0xc2 then none
  else if byte < 0xe0 then some { following := 1, bits := byte - 0xc0 }
  else if byte = 0xe0 then some { following := 2, bits := 0, low := 0xa0 }
  else if byte = 0xed then some { following := 2, bits := 0xd, high := 0x9f }
  else if byte < 0xf0 then some { following := 2, bits := byte - 0xe0 }
  else if byte = 0xf0 then some { following := 3, bits := 0, low := 0x90 }
  else if byte < 0xf4 then some { following := 3, bits := byte - 0xf0 }
  else if byte = 0xf4 then some { following := 3, bits := 4, high := 0x8f }
  else none

/-- The bytes at the front that can follow the first byte of a character, up to
`count` of them, the next one lying between `low` and `high`. -/
def utf8Tail (low high : Nat) : Nat → List UInt8 → List UInt8
  | 0, _ => []
  | _, [] => []
  | count + 1, byte :: rest =>
    if low ≤ byte.toNat ∧ byte.toNat ≤ high then byte :: utf8Tail 0x80 0xbf count rest else []

/-- The character that starts with the given byte; or what is wrong there.  Either
way with the number of bytes behind the first one that belong to it. -/
def utf8Front (byte : UInt8) (rest : List UInt8) : Except (Utf8Fault × Nat) (Char × Nat) :=
  match utf8Lead? byte.toNat with
  | none => .error (.start, 0)
  | some lead =>
    let tail := utf8Tail lead.low lead.high lead.following rest
    if tail.length = lead.following then
      let number := tail.foldl (fun number byte => 64 * number + (byte.toNat - 0x80)) lead.bits
      .ok (Char.ofNat number, lead.following)
    else .error (if rest.length = tail.length then .ended else .continuation, tail.length)

/-- The characters that bytes stand for, the first byte having the given
position. -/
def decodeUtf8From (position : Nat) (bytes : List UInt8) : Except Utf8Error Text :=
  match bytes with
  | [] => .ok []
  | byte :: rest =>
    match utf8Front byte rest with
    | .ok (c, used) => (decodeUtf8From (position + 1 + used) (rest.drop used)).map (c :: ·)
    | .error (fault, used) => .error ⟨fault, position, used + 1, byte⟩
termination_by bytes.length
decreasing_by
  simp only [List.length_drop, List.length_cons]
  omega

/-- The characters that bytes stand for, a replacement character standing for
every sequence of bytes that is none. -/
def repairUtf8 (bytes : List UInt8) : Text :=
  match bytes with
  | [] => []
  | byte :: rest =>
    match utf8Front byte rest with
    | .ok (c, used) => c :: repairUtf8 (rest.drop used)
    | .error (_, used) => '\ufffd' :: repairUtf8 (rest.drop used)
termination_by bytes.length
decreasing_by
  all_goals simp only [List.length_drop, List.length_cons]; omega

/-- The characters that bytes stand for. -/
def decodeUtf8 (bytes : List UInt8) : Except Utf8Error Text :=
  decodeUtf8From 0 bytes

/-- The text with every line end as a newline. -/
def unifyLineEnds : Text → Text
  | [] => []
  | '\r' :: '\n' :: rest => '\n' :: unifyLineEnds rest
  | c :: rest => (if c = '\r' then '\n' else c) :: unifyLineEnds rest

/-- The text in a file with these bytes. -/
def fileText (bytes : List UInt8) : Except Utf8Error Text :=
  (decodeUtf8 bytes).map unifyLineEnds

/-- ASCII is read byte by byte. -/
theorem decodeUtf8From_ascii (position : Nat) (bytes : List UInt8)
    (h : ∀ byte ∈ bytes, byte.toNat < 0x80) :
    decodeUtf8From position bytes = .ok (bytes.map fun byte => Char.ofNat byte.toNat) := by
  induction bytes generalizing position with
  | nil => simp [decodeUtf8From]
  | cons byte rest ih =>
    have hbyte : byte.toNat < 0x80 := h byte (by simp)
    have hrest := ih (position + 1) fun other hother => h other (by simp [hother])
    rw [decodeUtf8From]
    simp [utf8Front, utf8Lead?, hbyte, utf8Tail, hrest, Except.map]

/-- No carriage return is left. -/
theorem return_notMem_unifyLineEnds (text : Text) : '\r' ∉ unifyLineEnds text := by
  fun_induction unifyLineEnds text with
  | case1 => simp
  | case2 rest ih => simp [ih]
  | case3 c rest _ ih =>
    by_cases hc : c = '\r'
    · simp [hc, ih]
    · simp [hc, Ne.symm hc, ih]

end EditorScript
