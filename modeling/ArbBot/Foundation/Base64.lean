import Mathlib.Data.List.Basic
import Mathlib.Data.List.GetD

/-!
# Text codecs and base64

A `TextCodec` is a text form of byte strings: what is encoded decodes to itself,
and only texts the encoder writes are accepted. `Base64.standard` is the
RFC 4648 §4 codec with mandatory padding and zero trailing bits.
-/

namespace Foundation

/-- A text form of byte strings with canonical texts only. -/
structure TextCodec where
  encode : List UInt8 → String
  decode : String → Option (List UInt8)
  /-- What is said of a text that is not accepted. -/
  fault : String → String
  decode_encode : ∀ data, decode (encode data) = some data
  encode_of_decode : ∀ {text data}, decode text = some data → encode data = text

namespace Base64

/-! ## The alphabet -/

def alphabet : List Char :=
  "ABCDEFGHIJKLMNOPQRSTUVWXYZabcdefghijklmnopqrstuvwxyz0123456789+/".toList

theorem length_alphabet : alphabet.length = 64 := by decide

theorem nodup_alphabet : alphabet.Nodup := by decide

theorem pad_notMem_alphabet : '=' ∉ alphabet := by decide

/-- The character of a six-bit value. -/
def sextetChar (v : Nat) : Char := alphabet.getD v 'A'

/-- The six-bit value of a character. -/
def charSextet (c : Char) : Option Nat :=
  if c ∈ alphabet then some (alphabet.idxOf c) else none

theorem sextetChar_mem {v : Nat} (small : v < 64) : sextetChar v ∈ alphabet := by
  have bound : v < alphabet.length := by rw [length_alphabet]; exact small
  rw [sextetChar, List.getD_eq_getElem _ _ bound]
  exact List.getElem_mem bound

theorem charSextet_sextetChar {v : Nat} (small : v < 64) :
    charSextet (sextetChar v) = some v := by
  have bound : v < alphabet.length := by rw [length_alphabet]; exact small
  rw [charSextet, if_pos (sextetChar_mem small), sextetChar, List.getD_eq_getElem _ _ bound,
    nodup_alphabet.idxOf_getElem]

theorem sextetChar_ne_pad {v : Nat} (small : v < 64) : sextetChar v ≠ '=' := by
  intro same
  exact pad_notMem_alphabet (same ▸ sextetChar_mem small)

theorem charSextet_eq_some {c : Char} {v : Nat} (value : charSextet c = some v) :
    v < 64 ∧ sextetChar v = c := by
  unfold charSextet at value
  split at value
  · rename_i member
    obtain rfl := Option.some.inj value
    have bound := List.idxOf_lt_length_of_mem member
    refine ⟨length_alphabet ▸ bound, ?_⟩
    rw [sextetChar, List.getD_eq_getElem _ _ bound, List.getElem_idxOf]
  · cases value

/-! ## Encoding and decoding -/

/-- Three bytes make four characters; a short last group is padded. -/
def encodeChars : List UInt8 → List Char
  | a :: b :: c :: rest =>
      let n := a.toNat * 65536 + b.toNat * 256 + c.toNat
      sextetChar (n / 262144) :: sextetChar (n / 4096 % 64) :: sextetChar (n / 64 % 64) ::
        sextetChar (n % 64) :: encodeChars rest
  | [a, b] =>
      let n := a.toNat * 1024 + b.toNat * 4
      [sextetChar (n / 4096), sextetChar (n / 64 % 64), sextetChar (n % 64), '=']
  | [a] =>
      let n := a.toNat * 16
      [sextetChar (n / 64), sextetChar (n % 64), '=', '=']
  | [] => []

def decodeGroup (w x y z : Char) : Option (List UInt8) := do
  let w ← charSextet w
  let x ← charSextet x
  let y ← charSextet y
  let z ← charSextet z
  let n := w * 262144 + x * 4096 + y * 64 + z
  some [UInt8.ofNat (n / 65536), UInt8.ofNat (n / 256 % 256), UInt8.ofNat (n % 256)]

/-- The last group: one or two bytes, with the unused bits zero. -/
def decodeTail (w x y z : Char) : Option (List UInt8) := do
  let w ← charSextet w
  let x ← charSextet x
  if y = '=' then
    if z = '=' ∧ x % 16 = 0 then some [UInt8.ofNat (w * 4 + x / 16)] else none
  else
    let y ← charSextet y
    let n := w * 4096 + x * 64 + y
    if z = '=' ∧ y % 4 = 0 then
      some [UInt8.ofNat (n / 1024), UInt8.ofNat (n / 4 % 256)]
    else none

def decodeChars : List Char → Option (List UInt8)
  | [] => some []
  | w :: x :: y :: z :: rest =>
      match decodeGroup w x y z with
      | some group => (decodeChars rest).map (group ++ ·)
      | none => if rest = [] then decodeTail w x y z else none
  | _ => none

/-- Why the bytes of a text are refused. -/
inductive DecodeError where
  | invalidByte (offset : Nat) (byte : UInt8)
  | invalidLength (length : Nat)
  | invalidLastSymbol (offset : Nat) (byte : UInt8)
  | invalidPadding

def DecodeError.text : DecodeError → String
  | .invalidByte offset byte =>
      "Invalid symbol " ++ toString byte ++ ", offset " ++ toString offset ++ "."
  | .invalidLength length => "Invalid input length: " ++ toString length
  | .invalidLastSymbol offset byte =>
      "Invalid last symbol " ++ toString byte ++ ", offset " ++ toString offset ++ "."
  | .invalidPadding => "Invalid padding"

def padByte : UInt8 := 61

def isSymbol (byte : UInt8) : Bool := alphabet.any fun c => c.toNat == byte.toNat

/-- The first offence from position `k` of the last group on: early padding, padding that is
followed by another byte, or a byte that is no symbol. -/
def tailFault (start : Nat) : Nat → Option Nat → List UInt8 → Option DecodeError
  | _, _, [] => none
  | k, pad, byte :: rest =>
      if byte = padByte then
        if k < 2 then some (.invalidByte (start + k) byte)
        else tailFault start (k + 1) (some (pad.getD k)) rest
      else
        match pad with
        | some first => some (.invalidByte (start + first) padByte)
        | none =>
            if isSymbol byte then tailFault start (k + 1) none rest
            else some (.invalidByte (start + k) byte)

/-- The bytes before the last group come first, except for a single last byte that is no
symbol. -/
def decodeFault (bytes : List UInt8) : DecodeError :=
  let rem := bytes.length % 4
  let start := bytes.length - if rem = 0 then 4 else rem
  let last := bytes.getLastD 0
  if rem = 1 ∧ last ≠ padByte ∧ ¬ isSymbol last then .invalidByte (bytes.length - 1) last
  else
    match (bytes.take start).findIdx? fun byte => !isSymbol byte with
    | some i => .invalidByte i (bytes.getD i 0)
    | none =>
        match tailFault start 0 none (bytes.drop start) with
        | some e => e
        | none =>
            let symbols := (bytes.drop start).filter (· ≠ padByte)
            if symbols.length < 2 then .invalidLength (start + symbols.length)
            else if rem ≠ 0 then .invalidPadding
            else .invalidLastSymbol (start + symbols.length - 1) (symbols.getLastD 0)

theorem decodeGroup_sextets {w x y z : Nat} (hw : w < 64) (hx : x < 64) (hy : y < 64)
    (hz : z < 64) :
    decodeGroup (sextetChar w) (sextetChar x) (sextetChar y) (sextetChar z) =
      let n := w * 262144 + x * 4096 + y * 64 + z
      some [UInt8.ofNat (n / 65536), UInt8.ofNat (n / 256 % 256), UInt8.ofNat (n % 256)] := by
  simp only [decodeGroup, charSextet_sextetChar hw, charSextet_sextetChar hx,
    charSextet_sextetChar hy, charSextet_sextetChar hz, Option.bind_eq_bind, Option.bind_some]

theorem charSextet_pad : charSextet '=' = none := if_neg pad_notMem_alphabet

theorem decodeGroup_pad (w x y : Char) : decodeGroup w x y '=' = none := by
  simp only [decodeGroup, charSextet_pad, Option.bind_eq_bind, Option.bind_none]
  cases charSextet w <;> cases charSextet x <;> cases charSextet y <;> rfl

theorem ofNat_eq_byte {n : Nat} {a : UInt8} (same : n = a.toNat) : UInt8.ofNat n = a := by
  rw [same, UInt8.ofNat_toNat]

theorem decodeChars_encodeChars (data : List UInt8) :
    decodeChars (encodeChars data) = some data := by
  induction data using encodeChars.induct with
  | case1 a b c rest ih =>
      have ha := a.toNat_lt
      have hb := b.toNat_lt
      have hc := c.toNat_lt
      obtain ⟨n, range⟩ : ∃ n, n = a.toNat * 65536 + b.toNat * 256 + c.toNat := ⟨_, rfl⟩
      simp only [encodeChars, decodeChars, ← range]
      rw [decodeGroup_sextets (by omega) (by omega) (by omega) (by omega)]
      simp only [ih, Option.map_some, Option.some.injEq, List.cons_append, List.nil_append,
        List.cons.injEq, and_true]
      exact ⟨ofNat_eq_byte (by omega), ofNat_eq_byte (by omega), ofNat_eq_byte (by omega)⟩
  | case2 a b =>
      have ha := a.toNat_lt
      have hb := b.toNat_lt
      obtain ⟨n, range⟩ : ∃ n, n = a.toNat * 1024 + b.toNat * 4 := ⟨_, rfl⟩
      have third : sextetChar (n % 64) ≠ '=' := sextetChar_ne_pad (by omega)
      have aligned : n % 64 % 4 = 0 := by omega
      simp only [encodeChars, decodeChars, ← range, decodeGroup_pad, decodeTail, if_true,
        charSextet_sextetChar (show n / 4096 < 64 by omega),
        charSextet_sextetChar (show n / 64 % 64 < 64 by omega),
        charSextet_sextetChar (show n % 64 < 64 by omega), Option.bind_eq_bind,
        Option.bind_some, if_neg third, aligned, and_self, Option.some.injEq, List.cons.injEq,
        and_true]
      exact ⟨ofNat_eq_byte (by omega), ofNat_eq_byte (by omega)⟩
  | case3 a =>
      have ha := a.toNat_lt
      obtain ⟨n, range⟩ : ∃ n, n = a.toNat * 16 := ⟨_, rfl⟩
      have aligned : n % 64 % 16 = 0 := by omega
      simp only [encodeChars, decodeChars, ← range, decodeGroup_pad, decodeTail, if_true,
        charSextet_sextetChar (show n / 64 < 64 by omega),
        charSextet_sextetChar (show n % 64 < 64 by omega), Option.bind_eq_bind,
        Option.bind_some, aligned, and_self, Option.some.injEq, List.cons.injEq, and_true]
      exact ofNat_eq_byte (by omega)
  | case4 => rfl

/-! ## Only canonical texts decode -/

theorem decodeGroup_eq_some {w x y z : Char} {group : List UInt8}
    (decoded : decodeGroup w x y z = some group) (rest : List UInt8) :
    encodeChars (group ++ rest) = w :: x :: y :: z :: encodeChars rest := by
  simp only [decodeGroup, Option.bind_eq_bind, Option.bind_eq_some_iff, Option.some.injEq]
    at decoded
  obtain ⟨w', hw, x', hx, y', hy, z', hz, rfl⟩ := decoded
  obtain ⟨wSmall, rfl⟩ := charSextet_eq_some hw
  obtain ⟨xSmall, rfl⟩ := charSextet_eq_some hx
  obtain ⟨ySmall, rfl⟩ := charSextet_eq_some hy
  obtain ⟨zSmall, rfl⟩ := charSextet_eq_some hz
  simp only [List.cons_append, List.nil_append, encodeChars, UInt8.toNat_ofNat', List.cons.injEq,
    and_true]
  refine ⟨?_, ?_, ?_, ?_⟩ <;> congr 1 <;> omega

theorem decodeTail_eq_some {w x y z : Char} {group : List UInt8}
    (decoded : decodeTail w x y z = some group) : encodeChars group = [w, x, y, z] := by
  simp only [decodeTail, Option.bind_eq_bind, Option.bind_eq_some_iff] at decoded
  obtain ⟨w', hw, x', hx, decoded⟩ := decoded
  obtain ⟨wSmall, rfl⟩ := charSextet_eq_some hw
  obtain ⟨xSmall, rfl⟩ := charSextet_eq_some hx
  split at decoded
  · rename_i padded
    split at decoded
    · rename_i tail
      obtain rfl := Option.some.inj decoded
      simp only [encodeChars, UInt8.toNat_ofNat', padded, tail.1, List.cons.injEq, and_true]
      exact ⟨by congr 1; omega, by congr 1; omega⟩
    · cases decoded
  · simp only [Option.bind_eq_some_iff] at decoded
    obtain ⟨y', hy, decoded⟩ := decoded
    obtain ⟨ySmall, rfl⟩ := charSextet_eq_some hy
    split at decoded
    · rename_i tail
      obtain rfl := Option.some.inj decoded
      simp only [encodeChars, UInt8.toNat_ofNat', tail.1, List.cons.injEq, and_true]
      exact ⟨by congr 1; omega, by congr 1; omega, by congr 1; omega⟩
    · cases decoded

theorem encodeChars_of_decodeChars {text : List Char} {data : List UInt8}
    (decoded : decodeChars text = some data) : encodeChars data = text := by
  induction text using decodeChars.induct generalizing data with
  | case1 =>
      obtain rfl := Option.some.inj decoded
      rfl
  | case2 w x y z rest group grouped ih =>
      simp only [decodeChars, grouped, Option.map_eq_some_iff] at decoded
      obtain ⟨tail, tailDecoded, rfl⟩ := decoded
      rw [decodeGroup_eq_some grouped, ih tailDecoded]
  | case3 w x y z ungrouped =>
      simp only [decodeChars, ungrouped, if_true] at decoded
      exact decodeTail_eq_some decoded
  | case4 w x y z rest ungrouped more =>
      simp only [decodeChars, ungrouped, if_neg more] at decoded
      cases decoded
  | case5 text notNil notGroup =>
      simp only [decodeChars] at decoded
      cases decoded

/-- RFC 4648 §4 base64 with canonical padding. -/
def standard : TextCodec where
  encode data := String.ofList (encodeChars data)
  decode text := decodeChars text.toList
  fault text := (decodeFault text.toUTF8.toList).text
  decode_encode data := by rw [String.toList_ofList, decodeChars_encodeChars]
  encode_of_decode decoded := by
    rw [encodeChars_of_decodeChars decoded, String.ofList_toList]

end Base64

end Foundation
