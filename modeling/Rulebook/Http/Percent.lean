/-
  Percent encoding: characters of an address written as the bytes of their UTF-8 form.

  * `encode`: every character that is not safe is escaped;
  * `encodeAgain`: escapes that are there already are kept;
  * `decodeForm`: the text that a part of a query stands for.
-/

namespace Rulebook.Http

/-! ## Escapes -/

/-- A digit of an escape. -/
def hexDigit (n : Nat) : Char :=
  if n < 10 then Char.ofNat ('0'.toNat + n) else Char.ofNat ('A'.toNat + (n - 10))

/-- The escape of a character. -/
def escape (c : Char) : List Char :=
  (String.utf8EncodeChar c).flatMap fun b => ['%', hexDigit (b.toNat / 16), hexDigit (b.toNat % 16)]

/-- The characters that are never escaped. -/
def isUnreserved (c : Char) : Bool :=
  c.isAlphanum || "-._~".toList.contains c

/-- Escapes what is not safe. -/
def encode (safe : Char → Bool) (cs : List Char) : List Char :=
  cs.flatMap fun c => if isUnreserved c || safe c then [c] else escape c

/-- The value of a digit of an escape. -/
def hexValue? (c : Char) : Option Nat :=
  if c.isDigit then some (c.toNat - '0'.toNat)
  else if 'a' ≤ c ∧ c ≤ 'f' then some (c.toNat - 'a'.toNat + 10)
  else if 'A' ≤ c ∧ c ≤ 'F' then some (c.toNat - 'A'.toNat + 10)
  else none

/-- Escapes what is not safe and not part of an escape. -/
def encodeAgain (safe : Char → Bool) : List Char → List Char
  | '%' :: a :: b :: rest =>
    if (hexValue? a).isSome && (hexValue? b).isSome then '%' :: a :: b :: encodeAgain safe rest
    else encode safe ['%'] ++ encodeAgain safe (a :: b :: rest)
  | c :: rest => encode safe [c] ++ encodeAgain safe rest
  | [] => []

/-- Every character is safe or escaped, and a text of safe characters stays as it is. -/
theorem encode_of_safe {safe : Char → Bool} {cs : List Char} (h : ∀ c ∈ cs, safe c = true) :
    encode safe cs = cs := by
  induction cs with
  | nil => rfl
  | cons c cs ih =>
    have hc : safe c = true := h c (by simp)
    have ih := ih fun d hd => h d (by simp [hd])
    simp only [encode, List.flatMap_cons, hc, Bool.or_true, if_true, List.singleton_append] at *
    rw [ih]

/-! ## Forms -/

/-- A name or a value of a query: blanks are written as plus signs. -/
def encodeForm (s : String) : List Char :=
  s.toList.flatMap fun c => if c = ' ' then ['+'] else encode (fun _ => false) [c]

/-- The number of bytes that follow a first byte in UTF-8, and the least and most value of the next
    one; `none` if it starts no character. -/
def continuation? (b : Nat) : Option (Nat × Nat × Nat) :=
  if 0xc2 ≤ b ∧ b ≤ 0xdf then some (1, 0x80, 0xbf)
  else if b = 0xe0 then some (2, 0xa0, 0xbf)
  else if b = 0xed then some (2, 0x80, 0x9f)
  else if 0xe1 ≤ b ∧ b ≤ 0xef then some (2, 0x80, 0xbf)
  else if b = 0xf0 then some (3, 0x90, 0xbf)
  else if 0xf1 ≤ b ∧ b ≤ 0xf3 then some (3, 0x80, 0xbf)
  else if b = 0xf4 then some (3, 0x80, 0x8f)
  else none

/-- A character whose last bytes are still to come. -/
structure Pending where
  value : Nat
  left : Nat
  least : Nat
  most : Nat

/-- The characters of bytes in UTF-8; a broken sequence gives one replacement character. -/
def decodeBytes : List Nat → Option Pending → List Char
  | [], none => []
  | [], some _ => ['\ufffd']
  | b :: bs, some p =>
    if p.least ≤ b ∧ b ≤ p.most then
      let value := p.value * 64 + b % 64
      if p.left = 1 then Char.ofNat value :: decodeBytes bs none
      else decodeBytes bs (some ⟨value, p.left - 1, 0x80, 0xbf⟩)
    else '\ufffd' :: start b bs
  | b :: bs, none => start b bs
where
  /-- The characters of bytes from the first one of a character on. -/
  start (b : Nat) (bs : List Nat) : List Char :=
    if b < 0x80 then Char.ofNat b :: decodeBytes bs none
    else
      match continuation? b with
      | some (n, least, most) =>
        decodeBytes bs (some ⟨b % (if n = 1 then 32 else if n = 2 then 16 else 8), n, least, most⟩)
      | none => '\ufffd' :: decodeBytes bs none

/-- The text of a name or value of a query, with the bytes of escapes so far, the last one first. -/
def decodeFormFrom : List Char → List Nat → List Char
  | '%' :: a :: b :: rest, bytes =>
    match hexValue? a, hexValue? b with
    | some m, some n => decodeFormFrom rest ((16 * m + n) :: bytes)
    | _, _ => decodeBytes bytes.reverse none ++ '%' :: decodeFormFrom (a :: b :: rest) []
  | c :: rest, bytes =>
    decodeBytes bytes.reverse none ++ (if c = '+' then ' ' else c) :: decodeFormFrom rest []
  | [], bytes => decodeBytes bytes.reverse none

/-- The text of a name or value of a query. -/
def decodeForm (cs : List Char) : String :=
  String.ofList (decodeFormFrom cs [])

end Rulebook.Http
