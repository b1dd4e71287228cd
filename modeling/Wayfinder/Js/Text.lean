import Mathlib

/-! JavaScript strings.

A JavaScript string is a sequence of UTF-16 code units: `length`, `slice`,
`startsWith`, `===` and the order that `Array.prototype.sort` uses all see code
units, and a string may hold a surrogate without its partner. So `Str` is a list
of code units, and `lit` is the string a source literal denotes. -/
namespace Wayfinder.Js

/-- A JavaScript string, code unit by code unit. -/
abbrev Str := List UInt16

abbrev Bytes := List UInt8

/-- The code units of one character: a surrogate pair past U+FFFF. -/
def units (c : Char) : Str :=
  if c.toNat < 0x10000 then [c.toNat.toUInt16]
  else
    [(0xD800 + (c.toNat - 0x10000) / 0x400).toUInt16,
      (0xDC00 + (c.toNat - 0x10000) % 0x400).toUInt16]

/-- The string a literal of the source denotes. -/
def lit (s : String) : Str := s.toList.flatMap units

def isLeadSurrogate (u : UInt16) : Bool := 0xD800 ≤ u && u ≤ 0xDBFF

def isTrailSurrogate (u : UInt16) : Bool := 0xDC00 ≤ u && u ≤ 0xDFFF

/-! ### The string methods the service calls -/

/-- `s.startsWith(p)` -/
def startsWith (s p : Str) : Bool := p.isPrefixOf s

/-- `s.slice(n)` for a non-negative `n`. -/
def slice (s : Str) (n : Nat) : Str := s.drop n

/-- `s.split(sep)[0]` for a one-unit separator: the text before its first occurrence. -/
def splitHead (s : Str) (sep : UInt16) : Str := s.takeWhile (· != sep)

/-- `s.replace(pat, '')` for a non-empty string pattern: its first occurrence goes. -/
def removeFirst (pat : Str) : Str → Str
  | [] => []
  | c :: cs =>
    if pat.isPrefixOf (c :: cs) then (c :: cs).drop pat.length else c :: removeFirst pat cs

theorem startsWith_append (p s : Str) : startsWith (p ++ s) p = true := by
  simp [startsWith]

theorem slice_append (p s : Str) : slice (p ++ s) p.length = s := by
  simp [slice]

theorem removeFirst_append (p s : Str) (h : p ≠ []) : removeFirst p (p ++ s) = s := by
  cases p with
  | nil => exact absurd rfl h
  | cons c cs => simp [removeFirst]

/-- What is removed stood somewhere, or there was nothing to remove. -/
theorem removeFirst_cases (p s : Str) :
    removeFirst p s = s ∨ ∃ a b, s = a ++ p ++ b ∧ removeFirst p s = a ++ b := by
  induction s with
  | nil => exact .inl rfl
  | cons c cs ih =>
    rw [removeFirst]
    split
    · next hp =>
      obtain ⟨rest, hrest⟩ := List.isPrefixOf_iff_prefix.mp hp
      refine .inr ⟨[], rest, hrest.symm, ?_⟩
      rw [← hrest, List.drop_left]
      rfl
    · rcases ih with hsame | ⟨a, b, hcs, hremoved⟩
      · exact .inl (congrArg (c :: ·) hsame)
      · exact .inr ⟨c :: a, b, congrArg (c :: ·) hcs, congrArg (c :: ·) hremoved⟩

/-- Up to a separator that the prefix does not hold, the split gives the prefix back. -/
theorem splitHead_append (a b : Str) (sep : UInt16) (h : sep ∉ a) :
    splitHead (a ++ sep :: b) sep = a := by
  induction a with
  | nil => simp [splitHead]
  | cons c cs ih =>
    have hc : c ≠ sep := fun he => h (he ▸ List.mem_cons_self ..)
    have hcs : sep ∉ cs := fun hm => h (List.mem_cons_of_mem c hm)
    have := ih hcs
    simp only [splitHead, List.cons_append, List.takeWhile_cons, bne_iff_ne, ne_eq, hc,
      not_false_eq_true, if_true] at this ⊢
    rw [this]

theorem splitHead_self {s : Str} {sep : UInt16} (h : sep ∉ s) : splitHead s sep = s := by
  rw [splitHead, List.takeWhile_eq_self_iff]
  intro u hu
  have : u ≠ sep := fun he => h (he ▸ hu)
  simpa using this

/-- A pattern behind a text without one of the pattern's units is what is removed. -/
theorem removeFirst_behind {q r a : Str} {u : UInt16} (hq : u ∉ q) (ha : u ∉ a) (b : Str) :
    removeFirst (q ++ u :: r) (a ++ (q ++ u :: r) ++ b) = a ++ b := by
  induction a with
  | nil => exact removeFirst_append _ _ (by simp)
  | cons c cs ih =>
    show (if _ then _ else c :: removeFirst _ (cs ++ (q ++ u :: r) ++ b)) = _
    rw [ih fun hmem => ha (List.mem_cons_of_mem c hmem), if_neg fun hp => ?_]
    · rfl
    · -- the first `u` would stand in two places
      obtain ⟨rest, hrest⟩ := List.isPrefixOf_iff_prefix.mp hp
      have hplaces : q ++ u :: (r ++ rest) = (c :: cs ++ q) ++ u :: (r ++ b) := by simpa using hrest
      have hnot : u ∉ c :: cs ++ q := fun hmem => (List.mem_append.mp hmem).elim ha hq
      have hhead := congrArg (splitHead · u) hplaces
      simp only [splitHead_append _ _ _ hq, splitHead_append _ _ _ hnot] at hhead
      have hlen := congrArg List.length hhead
      simp only [List.length_append, List.length_cons] at hlen
      omega

/-! ### UTF-8 -/

/-- The UTF-8 bytes of a code point. -/
def utf8Bytes (n : Nat) : Bytes :=
  if n < 0x80 then [n.toUInt8]
  else if n < 0x800 then [(0xC0 + n / 0x40).toUInt8, (0x80 + n % 0x40).toUInt8]
  else if n < 0x10000 then
    [(0xE0 + n / 0x1000).toUInt8, (0x80 + n / 0x40 % 0x40).toUInt8, (0x80 + n % 0x40).toUInt8]
  else
    [(0xF0 + n / 0x40000).toUInt8, (0x80 + n / 0x1000 % 0x40).toUInt8,
      (0x80 + n / 0x40 % 0x40).toUInt8, (0x80 + n % 0x40).toUInt8]

/-- `new TextEncoder().encode(s)`: a surrogate without its partner is written as U+FFFD. -/
def utf8Encode : Str → Bytes
  | [] => []
  | [u] =>
    if isLeadSurrogate u || isTrailSurrogate u then utf8Bytes 0xFFFD else utf8Bytes u.toNat
  | u :: v :: rest =>
    if isLeadSurrogate u && isTrailSurrogate v then
      utf8Bytes (0x10000 + (u.toNat - 0xD800) * 0x400 + (v.toNat - 0xDC00)) ++ utf8Encode rest
    else if isLeadSurrogate u || isTrailSurrogate u then utf8Bytes 0xFFFD ++ utf8Encode (v :: rest)
    else utf8Bytes u.toNat ++ utf8Encode (v :: rest)

example : utf8Encode (lit "a€😀") = [0x61, 0xE2, 0x82, 0xAC, 0xF0, 0x9F, 0x98, 0x80] := by decide

/-! ### Hex -/

/-- The lower-case hex digit of a number below 16. -/
def hexDigit (n : Nat) : UInt16 := if n < 10 then (48 + n).toUInt16 else (87 + n).toUInt16

/-- The value of a hex digit of either case. -/
def hexValue (u : UInt16) : Option Nat :=
  if 48 ≤ u && u ≤ 57 then some (u.toNat - 48)
  else if 97 ≤ u && u ≤ 102 then some (u.toNat - 87)
  else if 65 ≤ u && u ≤ 70 then some (u.toNat - 55)
  else none

/-- `bytesToHex(b)`: two lower-case digits a byte. -/
def bytesToHex : Bytes → Str
  | [] => []
  | b :: bs => hexDigit (b.toNat / 16) :: hexDigit (b.toNat % 16) :: bytesToHex bs

/-- `hexToBytes(s)`: `none` where it throws, on an odd length or a character that is no digit. -/
def hexToBytes : Str → Option Bytes
  | [] => some []
  | [_] => none
  | a :: b :: rest =>
    match hexValue a, hexValue b, hexToBytes rest with
    | some x, some y, some bs => some ((16 * x + y).toUInt8 :: bs)
    | _, _, _ => none

/-- A lower-case hex digit. -/
def IsHexDigit (u : UInt16) : Prop := (48 ≤ u ∧ u ≤ 57) ∨ (97 ≤ u ∧ u ≤ 102)

theorem hexValue_hexDigit (n : Nat) (h : n < 16) : hexValue (hexDigit n) = some n := by
  revert n
  decide

theorem isHexDigit_hexDigit (n : Nat) (h : n < 16) : IsHexDigit (hexDigit n) := by
  revert n
  unfold IsHexDigit
  decide

theorem hexToBytes_bytesToHex (bs : Bytes) : hexToBytes (bytesToHex bs) = some bs := by
  induction bs with
  | nil => rfl
  | cons b bs ih =>
    have hb : b.toNat < 256 := b.toNat_lt
    have hv : (16 * (b.toNat / 16) + b.toNat % 16).toUInt8 = b := by
      rw [Nat.div_add_mod]
      simp
    simp only [bytesToHex, hexToBytes, hexValue_hexDigit _ (show b.toNat / 16 < 16 by omega),
      hexValue_hexDigit _ (show b.toNat % 16 < 16 by omega), ih, hv]

theorem bytesToHex_length (bs : Bytes) : (bytesToHex bs).length = 2 * bs.length := by
  induction bs with
  | nil => rfl
  | cons b bs ih =>
    simp only [bytesToHex, List.length_cons, ih]
    omega

theorem bytesToHex_digits (bs : Bytes) : ∀ u ∈ bytesToHex bs, IsHexDigit u := by
  induction bs with
  | nil => simp [bytesToHex]
  | cons b bs ih =>
    have hb : b.toNat < 256 := b.toNat_lt
    simp only [bytesToHex, List.mem_cons]
    rintro u (rfl | rfl | hu)
    · exact isHexDigit_hexDigit _ (by omega)
    · exact isHexDigit_hexDigit _ (by omega)
    · exact ih u hu

end Wayfinder.Js
