import Wayfinder.Js.Text
import Mathlib

/-! base58: bytes as digits in another base, with the leading zeros kept. -/
namespace Wayfinder.Reference.Base58

open Js

/-! ### Changing the base -/

/-- The digits of a number in base `b`, most significant first, as digits in base `c`;
leading zeros stand for themselves. -/
def recode (b c : Nat) (ds : List Nat) : List Nat :=
  List.replicate (ds.takeWhile (· == 0)).length 0 ++
    (Nat.digits c (Nat.ofDigits b (ds.dropWhile (· == 0)).reverse)).reverse

theorem takeWhile_zero (ds : List Nat) :
    ds.takeWhile (· == 0) = List.replicate (ds.takeWhile (· == 0)).length 0 := by
  rw [List.eq_replicate_iff]
  refine ⟨rfl, fun d hd => ?_⟩
  simpa using List.mem_takeWhile_imp hd

/-- A list of digits is its leading zeros and digits that do not start with one. -/
theorem head?_dropWhile_zero (ds : List Nat) : (ds.dropWhile (· == 0)).head? ≠ some 0 := by
  intro h
  have := List.head?_dropWhile_not (· == 0) ds
  rw [h] at this
  simp at this

theorem recode_lt {b c : Nat} (hc : 1 < c) (ds : List Nat) : ∀ d ∈ recode b c ds, d < c := by
  intro d hd
  rcases List.mem_append.mp hd with hd | hd
  · rw [List.eq_of_mem_replicate hd]
    omega
  · exact Nat.digits_lt_base hc (List.mem_reverse.mp hd)

/-- Recoding a number that does not start with a zero gives one that does not. -/
theorem digits_reverse_head (c m : Nat) : (Nat.digits c m).reverse.head? ≠ some 0 := by
  by_cases hm : m = 0
  · subst hm
    simp
  · intro h
    rw [List.head?_reverse, List.getLast?_eq_some_getLast (Nat.digits_ne_nil_iff_ne_zero.mpr hm)]
      at h
    exact Nat.getLast_digit_ne_zero c hm (Option.some.inj h)

/-- The zeros in front of digits that do not start with one are what is taken off. -/
theorem leading_zeros {k : Nat} {ds : List Nat} (h : ds.head? ≠ some 0) :
    ((List.replicate k 0 ++ ds).takeWhile (· == 0)).length = k ∧
      (List.replicate k 0 ++ ds).dropWhile (· == 0) = ds := by
  have hz : ∀ d ∈ List.replicate k 0, (d == 0) = true := by
    intro d hd
    rw [List.eq_of_mem_replicate hd]
    rfl
  rw [List.takeWhile_append_of_pos hz, List.dropWhile_append_of_pos hz]
  cases ds with
  | nil => simp
  | cons d rest =>
    have hd : (d == 0) = false := by
      rw [beq_eq_false_iff_ne]
      rintro rfl
      exact h rfl
    rw [List.takeWhile_cons_of_neg (by simp [hd]), List.dropWhile_cons_of_neg (by simp [hd])]
    simp

/-- **Changing the base and back is the identity.** -/
theorem recode_recode {b c : Nat} (hb : 1 < b) {ds : List Nat} (h : ∀ d ∈ ds, d < b) :
    recode c b (recode b c ds) = ds := by
  have hsplit : ds.takeWhile (· == 0) ++ ds.dropWhile (· == 0) = ds :=
    List.takeWhile_append_dropWhile
  have hlead := leading_zeros (k := (ds.takeWhile (· == 0)).length)
    (digits_reverse_head c (Nat.ofDigits b (ds.dropWhile (· == 0)).reverse))
  have hdigits : Nat.digits b (Nat.ofDigits b (ds.dropWhile (· == 0)).reverse) =
      (ds.dropWhile (· == 0)).reverse := by
    refine Nat.digits_ofDigits b hb _ (fun d hd => ?_) (fun hne => ?_)
    · exact h d (List.dropWhile_sublist _ |>.subset (List.mem_reverse.mp hd))
    · intro hlast
      refine head?_dropWhile_zero ds ?_
      rw [← List.getLast?_reverse, List.getLast?_eq_some_getLast hne, hlast]
  unfold recode at hlead ⊢
  rw [hlead.1, hlead.2, List.reverse_reverse, Nat.ofDigits_digits, hdigits, List.reverse_reverse,
    ← takeWhile_zero, hsplit]

/-! ### The alphabet -/

def alphabet : Str := lit "123456789ABCDEFGHJKLMNPQRSTUVWXYZabcdefghijkmnopqrstuvwxyz"

def character (d : Nat) : UInt16 := alphabet.getD d 0

theorem character_mem {d : Nat} (h : d < 58) : character d ∈ alphabet := by
  revert d
  decide

theorem idxOf_character {d : Nat} (h : d < 58) : alphabet.idxOf (character d) = d := by
  revert d
  decide

theorem idxOf_lt {u : UInt16} (h : u ∈ alphabet) : alphabet.idxOf u < 58 := by
  have hlen : alphabet.length = 58 := by decide
  exact hlen ▸ List.idxOf_lt_length_of_mem h

theorem character_idxOf {u : UInt16} (h : u ∈ alphabet) : character (alphabet.idxOf u) = u := by
  rw [character, List.getD_eq_getElem _ _ (List.idxOf_lt_length_of_mem h), List.getElem_idxOf]

def encode (b : Bytes) : Str := (recode 256 58 (b.map UInt8.toNat)).map character

/-- `none` on a character outside the alphabet. -/
def decode (s : Str) : Option Bytes :=
  if s.all alphabet.contains then
    some ((recode 58 256 (s.map alphabet.idxOf)).map Nat.toUInt8) else none

theorem encode_alphabet (b : Bytes) : ∀ u ∈ encode b, u ∈ alphabet := by
  intro u hu
  obtain ⟨d, hd, rfl⟩ := List.mem_map.mp hu
  exact character_mem (recode_lt (by decide) _ d hd)

theorem decode_encode (b : Bytes) : decode (encode b) = some b := by
  have hall : (encode b).all alphabet.contains = true :=
    List.all_eq_true.mpr fun u hu => List.contains_iff_mem.mpr (encode_alphabet b u hu)
  rw [decode, if_pos hall, encode, List.map_map]
  have hidx : (recode 256 58 (b.map UInt8.toNat)).map (alphabet.idxOf ∘ character) =
      recode 256 58 (b.map UInt8.toNat) := by
    refine (List.map_congr_left (g := id) fun d hd => ?_).trans (List.map_id _)
    exact idxOf_character (recode_lt (by decide) _ d hd)
  have hlt : ∀ d ∈ b.map UInt8.toNat, d < 256 := by
    intro d hd
    obtain ⟨x, _, rfl⟩ := List.mem_map.mp hd
    exact x.toNat_lt
  rw [hidx, recode_recode (by decide) hlt, List.map_map]
  have : (Nat.toUInt8 ∘ UInt8.toNat) = id := by
    funext x
    simp
  rw [this, List.map_id]

/-- Every text over the alphabet is the encoding of what it decodes to. -/
theorem encode_decode {s : Str} {b : Bytes} (h : decode s = some b) : encode b = s := by
  unfold decode at h
  split at h
  · next hall =>
    cases h
    have hs : ∀ u ∈ s, u ∈ alphabet := fun u hu =>
      List.contains_iff_mem.mp (List.all_eq_true.mp hall u hu)
    have hback : ((recode 58 256 (s.map alphabet.idxOf)).map Nat.toUInt8).map UInt8.toNat =
        recode 58 256 (s.map alphabet.idxOf) := by
      rw [List.map_map, List.map_congr_left (g := id), List.map_id]
      intro d hd
      have : d < 256 := recode_lt (by decide) _ d hd
      simp only [Function.comp, Nat.toUInt8, UInt8.toNat_ofNat_of_lt' this, id]
    have hlt : ∀ d ∈ s.map alphabet.idxOf, d < 58 := by
      intro d hd
      obtain ⟨u, hu, rfl⟩ := List.mem_map.mp hd
      exact idxOf_lt (hs u hu)
    rw [encode, hback, recode_recode (by decide) hlt, List.map_map]
    exact (List.map_congr_left (g := id) fun u hu =>
      character_idxOf (hs u hu)).trans (List.map_id _)
  · cases h

example : encode (utf8Encode (lit "hello")) = lit "Cn8eVZg" := by decide +kernel

end Wayfinder.Reference.Base58
