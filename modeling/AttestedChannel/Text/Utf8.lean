import AttestedChannel.Bytes

/-!
# UTF-8

Text travels as UTF-8. `encode` writes a text, `decodeChar` reads one character, and `scan` reads
the longest well-formed front of a byte string and leaves the rest, which is what a reader of
chunked text needs. `lossy` reads anything: each maximal ill-formed piece becomes the replacement
character.

`scan` and `lossy` end because each step removes at least one octet (`length_of_decodeChar`,
`illFormed_pos`).
-/

namespace AttestedChannel.Text.Utf8

/-! ## Writing -/

/-- The octets of one character. -/
def encodeChar (c : Char) : Bytes :=
  let n := c.toNat
  if n < 0x80 then [UInt8.ofNat n]
  else if n < 0x800 then [UInt8.ofNat (0xC0 + n / 64), UInt8.ofNat (0x80 + n % 64)]
  else if n < 0x10000 then
    [UInt8.ofNat (0xE0 + n / 4096), UInt8.ofNat (0x80 + n / 64 % 64), UInt8.ofNat (0x80 + n % 64)]
  else
    [UInt8.ofNat (0xF0 + n / 262144), UInt8.ofNat (0x80 + n / 4096 % 64),
      UInt8.ofNat (0x80 + n / 64 % 64), UInt8.ofNat (0x80 + n % 64)]

/-- The octets of a text. -/
def encode (s : String) : Bytes := s.toList.flatMap encodeChar

/-- The number of octets of a text. -/
def size (s : String) : Nat := (encode s).length

/-! ## Reading one character -/

/-- The octets that continue a character. -/
def isContinuation (x : UInt8) : Bool := 0x80 ≤ x && x ≤ 0xBF

/-- Whether `b` may follow `a` in a character of three octets: no overlong form, no surrogate. -/
def startsThree (a b : UInt8) : Bool :=
  if a = 0xE0 then 0xA0 ≤ b && b ≤ 0xBF
  else if a = 0xED then 0x80 ≤ b && b ≤ 0x9F
  else 0xE1 ≤ a && a ≤ 0xEF && isContinuation b

/-- Whether `b` may follow `a` in a character of four octets: no overlong form, none past the last
code point. -/
def startsFour (a b : UInt8) : Bool :=
  if a = 0xF0 then 0x90 ≤ b && b ≤ 0xBF
  else if a = 0xF4 then 0x80 ≤ b && b ≤ 0x8F
  else 0xF1 ≤ a && a ≤ 0xF3 && isContinuation b

/-- The first character and what follows it; nothing at the end and at an ill-formed octet. -/
def decodeChar : Bytes → Option (Char × Bytes)
  | [] => none
  | a :: r =>
    if a < 0x80 then some (Char.ofNat a.toNat, r)
    else match r with
      | [] => none
      | b :: r =>
        if 0xC2 ≤ a && a ≤ 0xDF && isContinuation b then
          some (Char.ofNat ((a.toNat - 0xC0) * 64 + (b.toNat - 0x80)), r)
        else match r with
          | [] => none
          | c :: r =>
            if startsThree a b && isContinuation c then
              some (Char.ofNat
                ((a.toNat - 0xE0) * 4096 + (b.toNat - 0x80) * 64 + (c.toNat - 0x80)), r)
            else match r with
              | [] => none
              | d :: r =>
                if startsFour a b && isContinuation c && isContinuation d then
                  some (Char.ofNat
                    ((a.toNat - 0xF0) * 262144 + (b.toNat - 0x80) * 4096 + (c.toNat - 0x80) * 64
                      + (d.toNat - 0x80)), r)
                else none

/-- A character read leaves fewer octets. -/
theorem length_of_decodeChar {b r : Bytes} {c : Char} (h : decodeChar b = some (c, r)) :
    r.length < b.length := by
  unfold decodeChar at h
  repeat' split at h
  all_goals
    simp only [Option.some.injEq, Prod.mk.injEq, reduceCtorEq] at h
  all_goals
    obtain ⟨_, rfl⟩ := h
    simp only [List.length_cons]
    omega

/-! ## Reading text -/

/-- `scan b` with the characters already read, last one first. -/
def scanOnto (read : List Char) (b : Bytes) : List Char × Bytes :=
  match _h : decodeChar b with
  | none => (read.reverse, b)
  | some (c, r) => scanOnto (c :: read) r
termination_by b.length
decreasing_by exact length_of_decodeChar (by assumption)

/-- The characters of the longest well-formed front, and what follows it. -/
def scan (b : Bytes) : List Char × Bytes := scanOnto [] b

/-- The text that the octets write, if they are well-formed throughout. -/
def decode? (b : Bytes) : Option String :=
  match scan b with
  | (cs, []) => some (String.ofList cs)
  | (_, _ :: _) => none

/-! ## Reading anything -/

/-- The length of the ill-formed piece at the front: the longest start of some character, at least
one octet. -/
def illFormed : Bytes → Nat
  | a :: b :: c :: _ =>
    if startsFour a b then (if isContinuation c then 3 else 2)
    else if startsThree a b then 2 else 1
  | [a, b] => if startsFour a b || startsThree a b then 2 else 1
  | _ => 1

theorem illFormed_pos (b : Bytes) : 0 < illFormed b := by
  unfold illFormed
  repeat' split
  all_goals decide

/-- `lossy b` with the characters already read, last one first. -/
def lossyOnto (read : List Char) (b : Bytes) : List Char :=
  match _h : decodeChar b with
  | some (c, r) => lossyOnto (c :: read) r
  | none =>
    match b with
    | [] => read.reverse
    | x :: r => lossyOnto (Char.ofNat 0xFFFD :: read) ((x :: r).drop (illFormed (x :: r)))
termination_by b.length
decreasing_by
  · exact length_of_decodeChar (by assumption)
  · have := illFormed_pos (x :: r)
    simp only [List.length_drop, List.length_cons]
    omega

/-- The text of any octets: each maximal ill-formed piece reads as the replacement character. -/
def lossy (b : Bytes) : String := String.ofList (lossyOnto [] b)

end AttestedChannel.Text.Utf8
