import Wayfinder.Js.Text
import Mathlib

/-! The numbers that JSON brings, and their text.

ECMAScript prints a finite number from the shortest digits that denote it and the
place of the point among them, and no two numbers share these. So a finite `Number` is
that pair, with the sign, and zero apart; `-0` prints as `0` and is zero. A literal beyond
the doubles, such as `1e400`, is parsed to an infinity, and no literal to `NaN`. `text` is
`Number::toString`, and `text_injective` says that the text gives a finite number back. -/
namespace Wayfinder.Js

/-- The digits of a number that is not zero: the first and the last are not `0`. -/
structure Digits where
  list : List (Fin 10)
  ne_nil : list ≠ []
  first_ne : list.head? ≠ some 0
  last_ne : list.getLast? ≠ some 0
deriving DecidableEq

/-- Zero, or `±0.d₁d₂…dₖ · 10 ^ point`, or `±Infinity`. -/
inductive Number where
  | zero
  | scaled (negative : Bool) (digits : Digits) (point : Int)
  | infinite (negative : Bool)
deriving DecidableEq

def digitUnit (d : Fin 10) : UInt16 := (48 + d.val).toUInt16

def digitsText (ds : List (Fin 10)) : Str := ds.map digitUnit

/-- A natural number in decimal. -/
def natText (n : Nat) : Str :=
  if n = 0 then [48] else (Nat.digits 10 n).reverse.map fun d => (48 + d).toUInt16

/-- `e+21`, `e-7` -/
def exponentText (e : Int) : Str := 101 :: (if e < 0 then 45 else 43) :: natText e.natAbs

/-- `Number::toString` of a positive number. -/
def unsignedText (ds : List (Fin 10)) (n : Int) : Str :=
  if ds.length ≤ n ∧ n ≤ 21 then digitsText ds ++ List.replicate (n.toNat - ds.length) 48
  else if 0 < n ∧ n ≤ 21 then digitsText (ds.take n.toNat) ++ 46 :: digitsText (ds.drop n.toNat)
  else if -6 < n ∧ n ≤ 0 then [48] ++ 46 :: (List.replicate (-n).toNat 48 ++ digitsText ds)
  else if ds.length = 1 then digitsText ds ++ exponentText (n - 1)
  else digitsText (ds.take 1) ++ 46 :: (digitsText (ds.drop 1) ++ exponentText (n - 1))

namespace Number

/-- `Number::toString` -/
def text : Number → Str
  | .zero => [48]
  | .scaled true ds n => 45 :: unsignedText ds.list n
  | .scaled false ds n => unsignedText ds.list n
  | .infinite true => lit "-Infinity"
  | .infinite false => lit "Infinity"

/-- `isFinite(q)` -/
def isFinite : Number → Bool
  | .infinite _ => false
  | _ => true

/-- `!(q % 1) && !isNaN(q)`, which an infinity passes: the remainder is `NaN`. -/
def isInteger : Number → Bool
  | .zero => true
  | .scaled _ ds n => ds.list.length ≤ n
  | .infinite _ => true

/-- A number as a fraction: its numerator, over a power of ten, or over zero. -/
def fraction : Number → Int × Nat
  | .zero => (0, 1)
  | .scaled negative ds n =>
    let m : Nat := ds.list.foldl (fun acc d => 10 * acc + d.val) 0 * 10 ^ (n - ds.list.length).toNat
    (if negative then -m else m, 10 ^ (ds.list.length - n).toNat)
  | .infinite negative => (if negative then -1 else 1, 0)

/-- `q <= n` -/
def atMost (q : Number) (n : Nat) : Bool := q.fraction.1 ≤ n * q.fraction.2

/-- `q >= n` -/
def atLeast (q : Number) (n : Nat) : Bool := n * q.fraction.2 ≤ q.fraction.1

/-- Whether a list of digits is one of a number. -/
def mkDigits (ds : List (Fin 10)) : Option Digits :=
  if h : ds ≠ [] ∧ ds.head? ≠ some 0 ∧ ds.getLast? ≠ some 0 then
    some ⟨ds, h.1, h.2.1, h.2.2⟩ else none

/-- The number a non-negative integer literal denotes. -/
def ofNat (n : Nat) : Number :=
  let ds : List (Fin 10) := ((Nat.digits 10 n).map (Fin.ofNat 10)).reverse
  match mkDigits (ds.rdropWhile (· == 0)) with
  | none => .zero
  | some d => .scaled false d ds.length

end Number

/-! ### Reading the text back -/

/-- The text before the exponent. -/
def mantissa (t : Str) : Str := t.takeWhile (· != 101)

/-- The exponent, `0` where the text has none. -/
def exponent (t : Str) : Int :=
  match t.dropWhile (· != 101) with
  | _ :: s :: ds =>
    let m : Nat := ds.foldl (fun acc u => 10 * acc + (u.toNat - 48)) 0
    if s = 45 then -m else m
  | _ => 0

/-- The digits before and after the point. -/
def plainDigits (t : Str) : Str := (mantissa t).filter (· != 46)

/-- How many digits stand before the point. -/
def wholeLength (t : Str) : Nat := ((mantissa t).takeWhile (· != 46)).length

/-- The digits without the zeros around them. -/
def readDigits (t : Str) : Str := ((plainDigits t).dropWhile (· == 48)).rdropWhile (· == 48)

def readPoint (t : Str) : Int :=
  wholeLength t - ((plainDigits t).takeWhile (· == 48)).length + exponent t

theorem digitUnit_toNat (d : Fin 10) : (digitUnit d).toNat = 48 + d.val := by
  revert d
  decide

theorem digitUnit_injective : Function.Injective digitUnit := by
  intro a b h
  have := congrArg UInt16.toNat h
  rw [digitUnit_toNat, digitUnit_toNat] at this
  exact Fin.ext (by omega)

theorem digitUnit_ne (d : Fin 10) : digitUnit d ≠ 46 ∧ digitUnit d ≠ 101 ∧ digitUnit d ≠ 45 := by
  revert d
  decide

theorem isNumberDigit (d : Fin 10) : 48 ≤ digitUnit d ∧ digitUnit d ≤ 57 := by
  revert d
  decide

theorem natText_value (n : Nat) :
    (natText n).foldl (fun acc u => 10 * acc + (u.toNat - 48)) 0 = n := by
  unfold natText
  split
  · next h => rw [h]; rfl
  · have hd : ∀ d ∈ Nat.digits 10 n, d < 10 := fun d hd => Nat.digits_lt_base (by decide) hd
    have hfold : ∀ ds : List Nat, (∀ d ∈ ds, d < 10) →
        (ds.reverse.map fun d => (48 + d).toUInt16).foldl
          (fun acc u => 10 * acc + (u.toNat - 48)) 0 = Nat.ofDigits 10 ds := by
      intro ds hds
      induction ds with
      | nil => rfl
      | cons d rest ih =>
        have hd : d < 10 := hds d (List.mem_cons_self ..)
        have hu : ((48 + d).toUInt16).toNat - 48 = d := by
          rw [Nat.toUInt16, UInt16.toNat_ofNat_of_lt' (show 48 + d < 65536 by omega)]
          omega
        rw [List.reverse_cons, List.map_append, List.foldl_append,
          ih fun x hx => hds x (List.mem_cons_of_mem d hx), Nat.ofDigits_cons]
        simp only [List.map_cons, List.map_nil, List.foldl_cons, List.foldl_nil, hu]
        omega
    rw [hfold _ hd, Nat.ofDigits_digits]

theorem exponent_value (e : Int) (t : Str) (ht : ∀ u ∈ t, u ≠ 101) :
    exponent (t ++ exponentText e) = e := by
  have hd : (t ++ exponentText e).dropWhile (· != 101) = exponentText e := by
    rw [List.dropWhile_append_of_pos (by simpa using ht)]
    rfl
  unfold exponent
  rw [hd]
  simp only [exponentText, natText_value]
  by_cases h : e < 0
  · rw [if_pos h, if_pos rfl]
    omega
  · rw [if_neg h, if_neg (by decide)]
    omega

theorem exponent_none (t : Str) (ht : ∀ u ∈ t, u ≠ 101) : exponent t = 0 := by
  have hd : t.dropWhile (· != 101) = [] := by simpa using ht
  unfold exponent
  rw [hd]

/-- Only digits and the point stand before the exponent. -/
theorem mantissa_append (t : Str) (e : Int) (ht : ∀ u ∈ t, u ≠ 101) :
    mantissa (t ++ exponentText e) = t := by
  unfold mantissa
  rw [List.takeWhile_append_of_pos (by simpa using ht)]
  simp [exponentText]

theorem mantissa_self (t : Str) (ht : ∀ u ∈ t, u ≠ 101) : mantissa t = t := by
  unfold mantissa
  rw [List.takeWhile_eq_self_iff]
  simpa using ht

theorem not_point {s : Str} (h : ∀ u ∈ s, u ≠ 46 ∧ u ≠ 101) : s.filter (· != 46) = s := by
  rw [List.filter_eq_self]
  intro u hu
  simpa using (h u hu).1

/-- A text without a point, with or without an exponent. -/
theorem read_whole {w x : Str} {e : Int} (hw : ∀ u ∈ w, u ≠ 46 ∧ u ≠ 101)
    (hx : x = [] ∧ e = 0 ∨ x = exponentText e) :
    plainDigits (w ++ x) = w ∧ wholeLength (w ++ x) = w.length ∧ exponent (w ++ x) = e := by
  have he : ∀ u ∈ w, u ≠ 101 := fun u hu => (hw u hu).2
  have hm : mantissa (w ++ x) = w := by
    rcases hx with ⟨rfl, _⟩ | rfl
    · rw [List.append_nil, mantissa_self w he]
    · exact mantissa_append w e he
  refine ⟨by rw [plainDigits, hm, not_point hw], ?_, ?_⟩
  · rw [wholeLength, hm, List.takeWhile_eq_self_iff.mpr]
    intro u hu
    simpa using (hw u hu).1
  · rcases hx with ⟨rfl, rfl⟩ | rfl
    · rw [List.append_nil, exponent_none w he]
    · exact exponent_value e w he

/-- A text with a point, with or without an exponent. -/
theorem read_point {w f x : Str} {e : Int} (hw : ∀ u ∈ w, u ≠ 46 ∧ u ≠ 101)
    (hf : ∀ u ∈ f, u ≠ 46 ∧ u ≠ 101) (hx : x = [] ∧ e = 0 ∨ x = exponentText e) :
    plainDigits (w ++ 46 :: (f ++ x)) = w ++ f ∧ wholeLength (w ++ 46 :: (f ++ x)) = w.length ∧
      exponent (w ++ 46 :: (f ++ x)) = e := by
  have ht : w ++ 46 :: (f ++ x) = (w ++ 46 :: f) ++ x := by simp
  have he : ∀ u ∈ w ++ 46 :: f, u ≠ 101 := by
    intro u hu
    rcases List.mem_append.mp hu with hu | hu
    · exact (hw u hu).2
    · rcases List.mem_cons.mp hu with rfl | hu
      · decide
      · exact (hf u hu).2
  have hm : mantissa (w ++ 46 :: (f ++ x)) = w ++ 46 :: f := by
    rw [ht]
    rcases hx with ⟨rfl, _⟩ | rfl
    · rw [List.append_nil, mantissa_self _ he]
    · exact mantissa_append _ e he
  refine ⟨?_, ?_, ?_⟩
  · rw [plainDigits, hm, List.filter_append, not_point hw, List.filter_cons_of_neg (by simp),
      not_point hf]
  · rw [wholeLength, hm, List.takeWhile_append_of_pos (fun u hu => by simpa using (hw u hu).1)]
    simp
  · rw [ht]
    rcases hx with ⟨rfl, rfl⟩ | rfl
    · rw [List.append_nil, exponent_none _ he]
    · exact exponent_value e _ he

theorem digitsText_units (ds : List (Fin 10)) : ∀ u ∈ digitsText ds, u ≠ 46 ∧ u ≠ 101 := by
  intro u hu
  obtain ⟨d, _, rfl⟩ := List.mem_map.mp hu
  exact ⟨(digitUnit_ne d).1, (digitUnit_ne d).2.1⟩

theorem zeros_units (n : Nat) : ∀ u ∈ List.replicate n (48 : UInt16), u ≠ 46 ∧ u ≠ 101 := by
  intro u hu
  rw [List.eq_of_mem_replicate hu]
  decide

/-- The zeros around the digits do not count. -/
theorem digits_between (ds : Digits) (a b : Nat) :
    ((List.replicate a 48 ++ digitsText ds.list ++ List.replicate b 48).takeWhile
      (· == 48)).length = a ∧
      ((List.replicate a 48 ++ digitsText ds.list ++ List.replicate b 48).dropWhile
        (· == 48)).rdropWhile (· == 48) = digitsText ds.list := by
  have hzero : ∀ n, ∀ u ∈ List.replicate n (48 : UInt16), (u == 48) = true := by
    intro n u hu
    rw [List.eq_of_mem_replicate hu]
    rfl
  have hunit : ∀ d : Fin 10, d ≠ 0 → (digitUnit d == 48) = false := by decide
  obtain ⟨d, rest, hds⟩ := List.exists_cons_of_ne_nil ds.ne_nil
  have hd : d ≠ 0 := fun h => ds.first_ne (by rw [hds, h]; rfl)
  have hhead : digitsText ds.list = digitUnit d :: digitsText rest := by rw [hds]; rfl
  rw [List.append_assoc, List.takeWhile_append_of_pos (hzero a),
    List.dropWhile_append_of_pos (hzero a)]
  constructor
  · rw [hhead, List.cons_append, List.takeWhile_cons_of_neg (by simp [hunit d hd])]
    simp
  · have hdrop : (digitsText ds.list ++ List.replicate b 48).dropWhile (· == 48) =
        digitsText ds.list ++ List.replicate b 48 := by
      rw [hhead, List.cons_append, List.dropWhile_cons_of_neg (by simp [hunit d hd])]
    rw [hdrop]
    induction b with
    | zero =>
      rw [List.replicate_zero, List.append_nil, List.rdropWhile_eq_self_iff]
      intro hl he
      have hlast : (digitsText ds.list).getLast? = (ds.list.getLast?).map digitUnit :=
        List.getLast?_map ..
      rw [List.getLast?_eq_some_getLast hl, List.getLast?_eq_some_getLast ds.ne_nil] at hlast
      rw [Option.some.inj hlast] at he
      have hl0 : ds.list.getLast ds.ne_nil ≠ 0 := fun h0 =>
        ds.last_ne (by rw [List.getLast?_eq_some_getLast ds.ne_nil, h0])
      rw [hunit _ hl0] at he
      cases he
    | succ b ih =>
      rw [List.replicate_succ', ← List.append_assoc, List.rdropWhile_concat_pos _ _ _ (by simp)]
      apply ih
      rw [hhead, List.cons_append, List.dropWhile_cons_of_neg (by simp [hunit d hd])]

/-- What is read back from the digits around a point. -/
theorem read_digits (ds : Digits) {t : Str} {a b w : Nat} {e n : Int}
    (h : plainDigits t = List.replicate a 48 ++ digitsText ds.list ++ List.replicate b 48 ∧
      wholeLength t = w ∧ exponent t = e) (hn : (w : Int) - a + e = n) :
    readDigits t = digitsText ds.list ∧ readPoint t = n := by
  obtain ⟨hp, hw, he⟩ := h
  have := digits_between ds a b
  exact ⟨by rw [readDigits, hp, this.2], by rw [readPoint, hp, this.1, hw, he, hn]⟩

theorem digitsText_take_drop (ds : List (Fin 10)) (k : Nat) :
    digitsText (ds.take k) ++ digitsText (ds.drop k) = digitsText ds := by
  rw [digitsText, digitsText, ← List.map_append, List.take_append_drop]
  rfl

/-- In each of its five formats the text gives the digits and the point back. -/
theorem read_unsigned (ds : Digits) (n : Int) :
    readDigits (unsignedText ds.list n) = digitsText ds.list ∧
      readPoint (unsignedText ds.list n) = n := by
  have hlen : (digitsText ds.list).length = ds.list.length := List.length_map ..
  have hpos : 0 < ds.list.length := List.length_pos_iff.mpr ds.ne_nil
  unfold unsignedText
  split_ifs with h1 h2 h3 h4
  · -- an integer: zeros up to the point
    have hw : ∀ u ∈ digitsText ds.list ++ List.replicate (n.toNat - ds.list.length) 48, u ≠ 46 ∧
        u ≠ 101 := by
      intro u hu
      rcases List.mem_append.mp hu with hu | hu
      · exact digitsText_units _ u hu
      · exact zeros_units _ u hu
    have := read_whole (x := []) hw (Or.inl ⟨rfl, rfl⟩)
    rw [List.append_nil] at this
    refine read_digits ds (a := 0) (b := n.toNat - ds.list.length) this ?_
    rw [List.length_append, hlen, List.length_replicate]
    omega
  · -- the point among the digits
    have := read_point (x := []) (digitsText_units (ds.list.take n.toNat))
      (digitsText_units (ds.list.drop n.toNat)) (Or.inl ⟨rfl, rfl⟩)
    rw [List.append_nil, digitsText_take_drop] at this
    refine read_digits ds (a := 0) (b := 0) (by simpa using this) ?_
    rw [digitsText, List.length_map, List.length_take]
    omega
  · -- zeros between the point and the digits
    have hf : ∀ u ∈ List.replicate (-n).toNat 48 ++ digitsText ds.list, u ≠ 46 ∧ u ≠ 101 := by
      intro u hu
      rcases List.mem_append.mp hu with hu | hu
      · exact zeros_units _ u hu
      · exact digitsText_units _ u hu
    have := read_point (w := [48]) (x := []) (by simp) hf (Or.inl ⟨rfl, rfl⟩)
    rw [List.append_nil, ← List.append_assoc] at this
    refine read_digits ds (a := (-n).toNat + 1) (b := 0)
      (by simpa [List.replicate_succ] using this) ?_
    push_cast
    omega
  · -- one digit and an exponent
    have := read_whole (digitsText_units ds.list) (Or.inr (rfl : exponentText (n - 1) = _))
    refine read_digits ds (a := 0) (b := 0) (by simpa using this) ?_
    rw [hlen, h4]
    omega
  · -- digits around a point, and an exponent
    have := read_point (digitsText_units (ds.list.take 1)) (digitsText_units (ds.list.drop 1))
      (Or.inr (rfl : exponentText (n - 1) = _))
    rw [digitsText_take_drop] at this
    refine read_digits ds (a := 0) (b := 0) (by simpa using this) ?_
    rw [digitsText, List.length_map, List.length_take]
    omega

theorem unsignedText_injective {ds es : Digits} {m n : Int}
    (h : unsignedText ds.list m = unsignedText es.list n) : ds = es ∧ m = n := by
  obtain ⟨hd, hm⟩ := read_unsigned ds m
  obtain ⟨he, hn⟩ := read_unsigned es n
  rw [h] at hd hm
  have hl : ds.list = es.list := List.map_injective_iff.mpr digitUnit_injective (hd.symm.trans he)
  constructor
  · cases ds
    cases es
    cases hl
    rfl
  · rw [← hm, hn]

/-! ### The characters of a number -/

/-- A character of a printed number: a digit or one of `+ - . e`. -/
def IsNumberUnit (u : UInt16) : Prop := (48 ≤ u ∧ u ≤ 57) ∨ u = 43 ∨ u = 45 ∨ u = 46 ∨ u = 101

theorem natText_digits (n : Nat) : ∀ u ∈ natText n, 48 ≤ u ∧ u ≤ 57 := by
  intro u hu
  unfold natText at hu
  split at hu
  · rw [List.mem_singleton.mp hu]
    decide
  · obtain ⟨d, hd, rfl⟩ := List.mem_map.mp hu
    have hlt : d < 10 := Nat.digits_lt_base (by decide) (List.mem_reverse.mp hd)
    exact isNumberDigit ⟨d, hlt⟩

theorem natText_units (n : Nat) : ∀ u ∈ natText n, IsNumberUnit u :=
  fun u hu => Or.inl (natText_digits n u hu)

theorem exponentText_units (e : Int) : ∀ u ∈ exponentText e, IsNumberUnit u := by
  intro u hu
  rcases List.mem_cons.mp hu with rfl | hu
  · exact Or.inr (by decide)
  · rcases List.mem_cons.mp hu with rfl | hu
    · exact Or.inr (by split <;> decide)
    · exact natText_units _ u hu

theorem digitsText_number (ds : List (Fin 10)) : ∀ u ∈ digitsText ds, IsNumberUnit u := by
  intro u hu
  obtain ⟨d, _, rfl⟩ := List.mem_map.mp hu
  exact Or.inl (isNumberDigit d)

theorem unsignedText_units (ds : List (Fin 10)) (n : Int) :
    ∀ u ∈ unsignedText ds n, IsNumberUnit u := by
  have hzero : ∀ k, ∀ u ∈ List.replicate k (48 : UInt16), IsNumberUnit u := by
    intro k u hu
    rw [List.eq_of_mem_replicate hu]
    exact Or.inl (by decide)
  have hpoint : IsNumberUnit 46 := Or.inr (by decide)
  have hz : IsNumberUnit 48 := Or.inl (by decide)
  intro u hu
  unfold unsignedText at hu
  split_ifs at hu <;> simp only [List.mem_append, List.mem_cons, List.not_mem_nil, or_false] at hu
  · exact hu.elim (digitsText_number _ u) (hzero _ u)
  · rcases hu with hu | rfl | hu
    · exact digitsText_number _ u hu
    · exact hpoint
    · exact digitsText_number _ u hu
  · rcases hu with rfl | rfl | hu | hu
    · exact hz
    · exact hpoint
    · exact hzero _ u hu
    · exact digitsText_number _ u hu
  · exact hu.elim (digitsText_number _ u) (exponentText_units _ u)
  · rcases hu with hu | rfl | hu | hu
    · exact digitsText_number _ u hu
    · exact hpoint
    · exact digitsText_number _ u hu
    · exact exponentText_units _ u hu

theorem unsignedText_head (ds : Digits) (n : Int) :
    ∃ u t, unsignedText ds.list n = u :: t ∧ u ≠ 45 := by
  obtain ⟨d, rest, hds⟩ := List.exists_cons_of_ne_nil ds.ne_nil
  have hd := (digitUnit_ne d).2.2
  unfold unsignedText
  rw [hds]
  split_ifs with h1 h2 h3 h4
  · exact ⟨digitUnit d, _, rfl, hd⟩
  · obtain ⟨k, hk⟩ : ∃ k, n.toNat = k + 1 := ⟨n.toNat - 1, by omega⟩
    rw [hk]
    exact ⟨digitUnit d, _, rfl, hd⟩
  · exact ⟨48, _, rfl, by decide⟩
  · exact ⟨digitUnit d, _, rfl, hd⟩
  · exact ⟨digitUnit d, _, rfl, hd⟩

namespace Number

theorem text_units {q : Number} (h : q.isFinite = true) : ∀ u ∈ q.text, IsNumberUnit u := by
  cases q with
  | infinite => cases h
  | zero =>
    intro u hu
    rw [List.mem_singleton.mp hu]
    exact Or.inl (by decide)
  | scaled negative ds n =>
    cases negative with
    | true =>
      intro u hu
      rcases List.mem_cons.mp hu with rfl | hu
      · exact Or.inr (by decide)
      · exact unsignedText_units _ _ u hu
    | false => exact unsignedText_units _ _

theorem text_ne_nil {q : Number} (h : q.isFinite = true) : q.text ≠ [] := by
  cases q with
  | infinite => cases h
  | zero => simp [text]
  | scaled negative ds n =>
    cases negative with
    | true => simp [text]
    | false =>
      obtain ⟨u, t, h, _⟩ := unsignedText_head ds n
      simp [text, h]

/-- No number but zero is printed as `0`. -/
theorem zero_text (ds : Digits) (n : Int) : unsignedText ds.list n ≠ [48] := by
  intro h
  have := (read_unsigned ds n).1
  rw [h] at this
  have hd : readDigits [48] = [] := by decide
  rw [hd] at this
  exact ds.ne_nil (List.map_eq_nil_iff.mp this.symm)

/-- **The text of a finite number determines it.** -/
theorem text_injective {p q : Number} (hp : p.isFinite = true) (hq : q.isFinite = true)
    (h : p.text = q.text) : p = q := by
  cases p with
  | infinite => cases hp
  | zero =>
    cases q with
    | infinite => cases hq
    | zero => rfl
    | scaled negative es n =>
      cases negative with
      | true => exact absurd (List.cons.inj h).1 (by decide)
      | false => exact absurd h.symm (zero_text es n)
  | scaled negative ds m =>
    cases q with
    | infinite => cases hq
    | zero =>
      cases negative with
      | true => exact absurd (List.cons.inj h).1 (by decide)
      | false => exact absurd h (zero_text ds m)
    | scaled negative' es n =>
      obtain ⟨u, t, hu, hne⟩ := unsignedText_head ds m
      obtain ⟨v, s, hv, hne'⟩ := unsignedText_head es n
      cases negative with
      | true =>
        cases negative' with
        | true =>
          obtain ⟨rfl, rfl⟩ := unsignedText_injective (List.cons.inj h).2
          rfl
        | false =>
          simp only [text, hv] at h
          exact absurd (List.cons.inj h).1.symm hne'
      | false =>
        cases negative' with
        | true =>
          simp only [text, hu] at h
          exact absurd (List.cons.inj h).1 hne
        | false =>
          obtain ⟨rfl, rfl⟩ := unsignedText_injective h
          rfl

end Number

end Wayfinder.Js
