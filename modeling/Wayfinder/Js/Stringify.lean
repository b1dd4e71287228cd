import Wayfinder.Js.Finite

/-! JSON text with the keys in order, and what it determines.

`stringify` is `JSON.stringify` on a scalar; `stableText` prints a whole value with
the keys of every object in order, as the service and the browser do before they
hash. The text of a finite value is self-delimiting before a comma, a closing bracket or the
end (`stableText_delimited`), so it determines the value up to the order of its keys. An
infinity is printed as `null`, so a text determines what JSON keeps of the value, and
nothing else is lost (`stableText_eq_iff`). -/
namespace Wayfinder.Js

/-! ### Strings -/

/-- A code unit as `\uXXXX`. -/
def unicodeEscape (u : UInt16) : Str :=
  [92, 117, hexDigit (u.toNat / 4096), hexDigit (u.toNat / 256 % 16), hexDigit (u.toNat / 16 % 16),
    hexDigit (u.toNat % 16)]

/-- A code unit that is no surrogate, escaped where JSON asks for it. -/
def escapeUnit (u : UInt16) : Str :=
  if u = 8 then [92, 98]
  else if u = 9 then [92, 116]
  else if u = 10 then [92, 110]
  else if u = 12 then [92, 102]
  else if u = 13 then [92, 114]
  else if u = 34 then [92, 34]
  else if u = 92 then [92, 92]
  else if u < 32 then unicodeEscape u
  else [u]

def isSurrogate (u : UInt16) : Bool := isLeadSurrogate u || isTrailSurrogate u

/-- What stands between the quotes. A surrogate pair is printed as it is, a surrogate
without its partner is escaped. -/
def escape : Str → Str
  | [] => []
  | [u] => if isSurrogate u then unicodeEscape u else escapeUnit u
  | u :: v :: rest =>
    if isLeadSurrogate u && isTrailSurrogate v then u :: v :: escape rest
    else if isSurrogate u then unicodeEscape u ++ escape (v :: rest)
    else escapeUnit u ++ escape (v :: rest)

/-- `JSON.stringify` on a string. -/
def quote (s : Str) : Str := 34 :: (escape s ++ [34])

/-- The code unit a two-character escape stands for. -/
def shortEscape (e : UInt16) : Option UInt16 :=
  if e = 98 then some 8
  else if e = 116 then some 9
  else if e = 110 then some 10
  else if e = 102 then some 12
  else if e = 114 then some 13
  else if e = 34 then some 34
  else if e = 92 then some 92
  else none

/-- Reads the text after an opening quote: the string, and what follows the closing one. -/
def unescape : Str → Option (Str × Str)
  | [] => none
  | u :: rest =>
    if u = 34 then some ([], rest)
    else if u = 92 then
      match rest with
      | [] => none
      | e :: rest =>
        if e = 117 then
          match rest with
          | a :: b :: c :: d :: rest =>
            match hexValue a, hexValue b, hexValue c, hexValue d with
            | some x, some y, some z, some w =>
              (unescape rest).map fun p => ((4096 * x + 256 * y + 16 * z + w).toUInt16 :: p.1, p.2)
            | _, _, _, _ => none
          | _ => none
        else
          match shortEscape e with
          | some c => (unescape rest).map fun p => (c :: p.1, p.2)
          | none => none
    else (unescape rest).map fun p => (u :: p.1, p.2)

theorem unescape_quote (t : Str) : unescape (34 :: t) = some ([], t) :=
  (unescape.eq_def _).trans (by simp)

theorem unescape_plain (u : UInt16) (t : Str) (hq : u ≠ 34) (hb : u ≠ 92) :
    unescape (u :: t) = (unescape t).map fun p => (u :: p.1, p.2) :=
  (unescape.eq_def _).trans (by simp [hq, hb])

theorem unescape_short (e c : UInt16) (t : Str) (hu : e ≠ 117) (h : shortEscape e = some c) :
    unescape (92 :: e :: t) = (unescape t).map fun p => (c :: p.1, p.2) :=
  (unescape.eq_def _).trans (by simp [hu, h])

theorem unescape_unicode (u : UInt16) (t : Str) :
    unescape (unicodeEscape u ++ t) = (unescape t).map fun p => (u :: p.1, p.2) := by
  have hu : u.toNat < 65536 := u.toNat_lt
  have hv : (4096 * (u.toNat / 4096) + 256 * (u.toNat / 256 % 16) + 16 * (u.toNat / 16 % 16) +
      u.toNat % 16).toUInt16 = u := by
    have : 4096 * (u.toNat / 4096) + 256 * (u.toNat / 256 % 16) + 16 * (u.toNat / 16 % 16) +
        u.toNat % 16 = u.toNat := by omega
    rw [this]
    simp
  refine (unescape.eq_def _).trans ?_
  simp [unicodeEscape, hexValue_hexDigit _ (show u.toNat / 4096 < 16 by omega),
    hexValue_hexDigit _ (show u.toNat / 256 % 16 < 16 by omega),
    hexValue_hexDigit _ (show u.toNat / 16 % 16 < 16 by omega),
    hexValue_hexDigit _ (show u.toNat % 16 < 16 by omega), hv]

theorem unescape_unit (u : UInt16) (t : Str) :
    unescape (escapeUnit u ++ t) = (unescape t).map fun p => (u :: p.1, p.2) := by
  unfold escapeUnit
  split_ifs with h1 h2 h3 h4 h5 h6 h7 h8
  · exact unescape_short 98 u t (by decide) (by rw [h1]; rfl)
  · exact unescape_short 116 u t (by decide) (by rw [h2]; rfl)
  · exact unescape_short 110 u t (by decide) (by rw [h3]; rfl)
  · exact unescape_short 102 u t (by decide) (by rw [h4]; rfl)
  · exact unescape_short 114 u t (by decide) (by rw [h5]; rfl)
  · exact unescape_short 34 u t (by decide) (by rw [h6]; rfl)
  · exact unescape_short 92 u t (by decide) (by rw [h7]; rfl)
  · exact unescape_unicode u t
  · exact unescape_plain u t h6 h7

theorem surrogate_plain (u : UInt16) (h : isSurrogate u = true) : u ≠ 34 ∧ u ≠ 92 := by
  constructor <;> rintro rfl <;> exact absurd h (by decide)

/-- Reading back what `escape` printed, up to the closing quote. -/
theorem unescape_escape (s t : Str) : unescape (escape s ++ 34 :: t) = some (s, t) := by
  induction s using escape.induct with
  | case1 => exact unescape_quote t
  | case2 u h =>
    simp only [escape, h, if_true]
    rw [unescape_unicode, unescape_quote]
    rfl
  | case3 u h =>
    simp only [escape, h, Bool.false_eq_true, if_false]
    rw [unescape_unit, unescape_quote]
    rfl
  | case4 u v rest h ih =>
    have hs := Bool.and_eq_true_iff.mp h
    have hu := surrogate_plain u (by simp [isSurrogate, hs.1])
    have hv := surrogate_plain v (by simp [isSurrogate, hs.2])
    simp only [escape, h, if_true, List.cons_append]
    rw [unescape_plain u _ hu.1 hu.2, unescape_plain v _ hv.1 hv.2, ih]
    rfl
  | case5 u v rest h hs ih =>
    simp only [escape, h, hs, Bool.false_eq_true, if_false, if_true, List.append_assoc]
    rw [unescape_unicode, ih]
    rfl
  | case6 u v rest h hs ih =>
    simp only [escape, h, hs, Bool.false_eq_true, if_false, List.append_assoc]
    rw [unescape_unit, ih]
    rfl

/-- A quoted string ends where it ends, whatever follows. -/
theorem quote_delimited {a b r s : Str} (h : quote a ++ r = quote b ++ s) : a = b ∧ r = s := by
  simp only [quote, List.cons_append, List.append_assoc, List.nil_append, List.cons.injEq,
    true_and] at h
  have ha := unescape_escape a r
  rw [h, unescape_escape b s] at ha
  simp only [Option.some.injEq, Prod.mk.injEq] at ha
  exact ⟨ha.1.symm, ha.2.symm⟩

/-! ### Whole values -/

def joinComma : List Str → Str
  | [] => []
  | [t] => t
  | t :: u :: rest => t ++ 44 :: joinComma (u :: rest)

/-- `${JSON.stringify(k)}:${t}` -/
def fieldText (p : Str × Str) : Str := quote p.1 ++ 58 :: p.2

/-- `JSON.stringify` on a scalar. -/
def stringify : Json → Str
  | .null => lit "null"
  | .bool b => if b then lit "true" else lit "false"
  | .num q => if q.isFinite then q.text else lit "null"
  | .str s => quote s
  | _ => []

mutual

/-- The text of a value with the keys of every object in order. -/
def stableText : Json → Str
  | .arr items => 91 :: (joinComma (stableItems items) ++ [93])
  | .obj fs => 123 :: (joinComma ((sortByKey (stableFields fs)).map fieldText) ++ [125])
  | .null => stringify .null
  | .bool b => stringify (.bool b)
  | .num q => stringify (.num q)
  | .str s => stringify (.str s)

def stableItems : List Json → List Str
  | [] => []
  | j :: rest => stableText j :: stableItems rest

def stableFields : List (Str × Json) → List (Str × Str)
  | [] => []
  | (k, v) :: rest => (k, stableText v) :: stableFields rest

end

theorem stableItems_eq (items : List Json) : stableItems items = items.map (stableText) := by
  induction items with
  | nil => rfl
  | cons j rest ih => rw [stableItems, ih, List.map_cons]

theorem stableFields_eq (fs : Fields) :
    stableFields fs = fs.map (fun p => (p.1, stableText p.2)) := by
  induction fs with
  | nil => rfl
  | cons p rest ih =>
    obtain ⟨k, v⟩ := p
    rw [stableFields, ih, List.map_cons]

/-! ### Coercion -/

mutual

/-- `${v}`: an object is its tag, unless its own `toString` is in the way. -/
def toText : Json → Except Thrown Str
  | .null => .ok (lit "null")
  | .bool b => .ok (if b then lit "true" else lit "false")
  | .num q => .ok q.text
  | .str s => .ok s
  | .arr items => (itemTexts items).map joinComma
  | .obj fs =>
    if (getField fs (lit "toString")).isSome then .error .typeError else .ok (lit "[object Object]")

/-- The texts that `join` puts between commas; `null` has none. -/
def itemTexts : List Json → Except Thrown (List Str)
  | [] => .ok []
  | j :: rest =>
    match j with
    | .null => (itemTexts rest).map ([] :: ·)
    | j =>
      match toText j with
      | .error e => .error e
      | .ok t => (itemTexts rest).map (t :: ·)

end

/-- `${v}`, of a value that may be missing. -/
def toText? : Option Json → Except Thrown Str
  | none => .ok (lit "undefined")
  | some j => toText j

/-! ### What the text determines -/

/-- The text that may follow a value: nothing, a comma or a closing bracket. -/
def Closes : Str → Prop
  | [] => True
  | u :: _ => u = 44 ∨ u = 93 ∨ u = 125

/-- Which kind of value starts with a code unit; none starts with a closing bracket. -/
def headKind (u : UInt16) : Nat :=
  if u = 110 then 0
  else if u = 116 ∨ u = 102 then 1
  else if u = 34 then 3
  else if u = 91 then 4
  else if u = 123 then 5
  else if u = 93 then 6
  else 2

def kind : Json → Nat
  | .null => 0
  | .bool _ => 1
  | .num _ => 2
  | .str _ => 3
  | .arr _ => 4
  | .obj _ => 5

theorem headKind_number (u : UInt16) (h : IsNumberUnit u) : headKind u = 2 := by
  unfold headKind
  rcases h with ⟨h1, h2⟩ | rfl | rfl | rfl | rfl
  · have hne : ∀ v : UInt16, v < 48 ∨ 57 < v → u ≠ v := by
      rintro v (hv | hv) rfl
      · exact absurd hv (UInt16.not_lt.mpr h1)
      · exact absurd hv (UInt16.not_lt.mpr h2)
    simp [hne 110 (by decide), hne 116 (by decide), hne 102 (by decide), hne 34 (by decide),
      hne 91 (by decide), hne 123 (by decide), hne 93 (by decide)]
  all_goals decide

theorem closes_not_number (u : UInt16) (t : Str) (h : Closes (u :: t)) : ¬ IsNumberUnit u := by
  rcases h with rfl | rfl | rfl <;> unfold IsNumberUnit <;> decide

theorem stableText_num {q : Number} (h : q.isFinite = true) : stableText (.num q) = q.text :=
  if_pos h

theorem stableText_head {j : Json} (h : j.Finite) :
    ∃ u t, stableText j = u :: t ∧ headKind u = kind j := by
  cases j with
  | null => exact ⟨_, _, rfl, rfl⟩
  | bool b => cases b <;> exact ⟨_, _, rfl, rfl⟩
  | num q =>
    rw [stableText_num h]
    cases ht : q.text with
    | nil => exact absurd ht (Number.text_ne_nil h)
    | cons u t =>
      exact ⟨u, t, rfl, headKind_number u (Number.text_units h u (ht ▸ List.mem_cons_self ..))⟩
  | str s => exact ⟨_, _, rfl, rfl⟩
  | arr items => exact ⟨_, _, rfl, rfl⟩
  | obj fs => exact ⟨_, _, rfl, rfl⟩

/-- Two values whose texts start alike are of one kind. -/
theorem kind_eq {a b : Json} (ha : a.Finite) (hb : b.Finite) {r s : Str}
    (h : stableText a ++ r = stableText b ++ s) : kind a = kind b := by
  obtain ⟨u, t, ha, hu⟩ := stableText_head ha
  obtain ⟨v, w, hb, hv⟩ := stableText_head hb
  rw [ha, hb, List.cons_append, List.cons_append, List.cons.injEq] at h
  rw [← hu, ← hv, h.1]

/-- A run of number characters ends where the text closes. -/
theorem number_delimited {x y r s : Str} (hx : ∀ u ∈ x, IsNumberUnit u)
    (hy : ∀ u ∈ y, IsNumberUnit u) (hr : Closes r) (hs : Closes s) (h : x ++ r = y ++ s) :
    x = y ∧ r = s := by
  induction x generalizing y with
  | nil =>
    cases y with
    | nil => exact ⟨rfl, h⟩
    | cons v y =>
      rw [List.nil_append, List.cons_append] at h
      subst h
      exact absurd (hy v (List.mem_cons_self ..)) (closes_not_number v _ hr)
  | cons u x ih =>
    cases y with
    | nil =>
      rw [List.nil_append, List.cons_append] at h
      subst h
      exact absurd (hx u (List.mem_cons_self ..)) (closes_not_number u _ hs)
    | cons v y =>
      rw [List.cons_append, List.cons_append, List.cons.injEq] at h
      obtain ⟨rfl, h⟩ := h
      obtain ⟨rfl, hrs⟩ := ih (fun w hw => hx w (List.mem_cons_of_mem u hw))
        (fun w hw => hy w (List.mem_cons_of_mem u hw)) h
      exact ⟨rfl, hrs⟩

/-- What follows the first text of a joined list, up to its closing bracket. -/
def afterFirst (close : UInt16) (ts : List Str) (r : Str) : Str :=
  match ts with
  | [] => close :: r
  | _ => 44 :: (joinComma ts ++ close :: r)

theorem joinComma_cons (close : UInt16) (t : Str) (ts : List Str) (r : Str) :
    joinComma (t :: ts) ++ close :: r = t ++ afterFirst close ts r := by
  cases ts with
  | nil => rfl
  | cons u rest => simp [joinComma, afterFirst]

theorem closes_afterFirst (close : UInt16) (ts : List Str) (r : Str)
    (hc : close = 93 ∨ close = 125) :
    Closes (afterFirst close ts r) := by
  cases ts with
  | nil => exact Or.inr hc
  | cons t rest => exact Or.inl rfl

/-- A joined list of self-delimiting texts determines what its texts determine. -/
theorem joinComma_delimited {α β : Type} (T : α → Str) (N : α → β) (close : UInt16)
    (hc : close = 93 ∨ close = 125) {xs ys : List α}
    (hxs : ∀ x ∈ xs, ∃ u t, T x = u :: t ∧ u ≠ close)
    (hys : ∀ y ∈ ys, ∃ u t, T y = u :: t ∧ u ≠ close) {r s : Str}
    (hT : ∀ x ∈ xs, ∀ y ∈ ys, ∀ r s, Closes r → Closes s → T x ++ r = T y ++ s → N x = N y ∧ r = s)
    (h : joinComma (xs.map T) ++ close :: r = joinComma (ys.map T) ++ close :: s) :
    xs.map N = ys.map N ∧ r = s := by
  have hne : ∀ x, (∃ u t, T x = u :: t ∧ u ≠ close) → ∀ ts r' s',
      close :: s' ≠ joinComma (T x :: ts) ++ close :: r' := by
    rintro x ⟨u, t, hx, hu⟩ ts r' s' he
    rw [joinComma_cons, hx, List.cons_append, List.cons.injEq] at he
    exact hu he.1.symm
  induction xs generalizing ys with
  | nil =>
    cases ys with
    | nil => exact ⟨rfl, (List.cons.inj h).2⟩
    | cons y ys => exact absurd h (hne y (hys y (List.mem_cons_self ..)) _ s r)
  | cons x xs ih =>
    cases ys with
    | nil => exact absurd h.symm (hne x (hxs x (List.mem_cons_self ..)) _ r s)
    | cons y ys =>
      rw [List.map_cons, List.map_cons, joinComma_cons, joinComma_cons] at h
      obtain ⟨hN, hrest⟩ := hT x (List.mem_cons_self ..) y (List.mem_cons_self ..)
        _ _ (closes_afterFirst close _ r hc) (closes_afterFirst close _ s hc) h
      have hcomma : close ≠ 44 := by rcases hc with rfl | rfl <;> decide
      have hmap : xs.map N = ys.map N ∧ r = s := by
        cases xs with
        | nil =>
          cases ys with
          | nil => exact ⟨rfl, (List.cons.inj hrest).2⟩
          | cons _ _ => exact absurd (List.cons.inj hrest).1 hcomma
        | cons x' xs' =>
          cases ys with
          | nil => exact absurd (List.cons.inj hrest).1.symm hcomma
          | cons y' ys' =>
            exact ih (fun z hz => hxs z (List.mem_cons_of_mem x hz))
              (fun z hz => hys z (List.mem_cons_of_mem y hz))
              (fun z hz w hw => hT z (List.mem_cons_of_mem x hz) w (List.mem_cons_of_mem y hw))
              (List.cons.inj hrest).2
      exact ⟨by rw [List.map_cons, List.map_cons, hN, hmap.1], hmap.2⟩

theorem stableText_obj (fs : Fields) :
    stableText (.obj fs) = 123 :: (joinComma ((sortByKey fs).map fun p =>
      fieldText (p.1, stableText p.2)) ++ [125]) := by
  rw [stableText, stableFields_eq, sortByKey_map, List.map_map]
  rfl

theorem stableText_arr (items : List Json) :
    stableText (.arr items) = 91 :: (joinComma (items.map (stableText)) ++ [93]) := by
  rw [stableText, stableItems_eq]

/-- **The text of a finite value ends where it ends and determines the value up to the order
of its keys**, whatever closing text follows. -/
theorem stableText_delimited {a b : Json} (ha : a.Finite) (hb : b.Finite) {r s : Str}
    (hr : Closes r) (hs : Closes s) (h : stableText a ++ r = stableText b ++ s) :
    a.sortKeys = b.sortKeys ∧ r = s := by
  induction a using Json.induct generalizing b r s with
  | null =>
    have hk := kind_eq ha hb h
    cases b <;> simp [kind] at hk
    exact ⟨rfl, List.append_cancel_left h⟩
  | bool x =>
    have hk := kind_eq ha hb h
    cases b <;> simp [kind] at hk
    rename_i y
    cases x <;> cases y
    · exact ⟨rfl, List.append_cancel_left h⟩
    · exact absurd (List.cons.inj h).1 (by decide)
    · exact absurd (List.cons.inj h).1 (by decide)
    · exact ⟨rfl, List.append_cancel_left h⟩
  | num p =>
    have hk := kind_eq ha hb h
    cases b <;> simp [kind] at hk
    rename_i q
    rw [stableText_num ha, stableText_num hb] at h
    obtain ⟨ht, hrs⟩ := number_delimited (Number.text_units ha) (Number.text_units hb) hr hs h
    exact ⟨by rw [Number.text_injective ha hb ht], hrs⟩
  | str x =>
    have hk := kind_eq ha hb h
    cases b <;> simp [kind] at hk
    rename_i y
    obtain ⟨rfl, hrs⟩ := quote_delimited h
    exact ⟨rfl, hrs⟩
  | arr xs ih =>
    have hk := kind_eq ha hb h
    cases b <;> simp [kind] at hk
    rename_i ys
    rw [finite_arr] at ha hb
    rw [stableText_arr, stableText_arr, List.cons_append, List.cons_append, List.append_assoc,
      List.append_assoc] at h
    have hopen : ∀ j : Json, j.Finite → ∃ u t, stableText j = u :: t ∧ u ≠ 93 := by
      intro j hj
      obtain ⟨u, t, ht, hu⟩ := stableText_head hj
      refine ⟨u, t, ht, ?_⟩
      rintro rfl
      cases j <;> simp [headKind, kind] at hu
    obtain ⟨hN, hrs⟩ := joinComma_delimited stableText Json.sortKeys 93 (Or.inl rfl)
      (fun x hx => hopen x (ha x hx)) (fun y hy => hopen y (hb y hy))
      (fun x hx y hy _ _ => ih x hx (ha x hx) (hb y hy)) (List.cons.inj h).2
    exact ⟨by rw [sortKeys_arr, sortKeys_arr, hN], hrs⟩
  | obj fs ih =>
    have hk := kind_eq ha hb h
    cases b <;> simp [kind] at hk
    rename_i gs
    rw [stableText_obj, stableText_obj, List.cons_append, List.cons_append, List.append_assoc,
      List.append_assoc] at h
    rw [finite_obj] at ha hb
    obtain ⟨hN, hrs⟩ := joinComma_delimited (fun p : Str × Json => fieldText (p.1, stableText p.2))
      (fun p => (p.1, p.2.sortKeys)) 125 (Or.inr rfl) (fun p _ => ⟨34, _, rfl, by decide⟩)
      (fun p _ => ⟨34, _, rfl, by decide⟩)
      (fun p hp q hq r s hr hs hpq => by
        simp only [fieldText, List.append_assoc, List.cons_append] at hpq
        obtain ⟨hkey, htail⟩ := quote_delimited hpq
        obtain ⟨hv, hrs⟩ := ih p (mem_sortByKey.mp hp) (ha p (mem_sortByKey.mp hp))
          (hb q (mem_sortByKey.mp hq)) hr hs (List.cons.inj htail).2
        exact ⟨Prod.ext hkey hv, hrs⟩)
      (List.cons.inj h).2
    exact ⟨by rw [sortKeys_obj, sortKeys_obj, hN], hrs⟩

theorem sortByKey_idem {α : Type} (fs : List (Str × α)) : sortByKey (sortByKey fs) = sortByKey fs :=
  List.Pairwise.insertionSort_eq (List.pairwise_insertionSort _ _)

/-- The text does not see the order of the keys. -/
theorem stableText_sortKeys (j : Json) :
    stableText j.sortKeys = stableText j := by
  induction j using Json.induct with
  | null => rfl
  | bool b => rfl
  | num q => rfl
  | str s => rfl
  | arr items ih =>
    rw [sortKeys_arr, stableText_arr, stableText_arr, List.map_map]
    exact congrArg (fun ts => 91 :: (joinComma ts ++ [93])) (List.map_congr_left ih)
  | obj fs ih =>
    rw [sortKeys_obj, stableText_obj, stableText_obj, sortByKey_map, sortByKey_idem, List.map_map]
    refine congrArg (fun ts => 123 :: (joinComma ts ++ [125])) (List.map_congr_left fun p hp => ?_)
    simp only [Function.comp, ih p (mem_sortByKey.mp hp)]

/-- Nor does it see the infinities. -/
theorem stableText_reparsed (j : Json) : stableText j.reparsed = stableText j := by
  induction j using Json.induct with
  | null => rfl
  | bool b => rfl
  | num q =>
    rw [Json.reparsed]
    split
    · rfl
    · next h => exact (if_neg h).symm
  | str s => rfl
  | arr items ih =>
    rw [reparsed_arr, stableText_arr, stableText_arr, List.map_map]
    exact congrArg (fun ts => 91 :: (joinComma ts ++ [93])) (List.map_congr_left ih)
  | obj fs ih =>
    rw [reparsed_obj, stableText_obj, stableText_obj, sortByKey_map, List.map_map]
    refine congrArg (fun ts => 123 :: (joinComma ts ++ [125])) (List.map_congr_left fun p hp => ?_)
    simp only [Function.comp, ih p (mem_sortByKey.mp hp)]

/-- **Two values have one text exactly when JSON keeps the same of them, up to the order of
keys.** -/
theorem stableText_eq_iff (a b : Json) : stableText a = stableText b ↔ SameText a b := by
  constructor
  · intro h
    rw [← stableText_reparsed a, ← stableText_reparsed b] at h
    exact (stableText_delimited (finite_reparsed a) (finite_reparsed b) (r := [])
      (s := []) trivial trivial (by rw [h])).1
  · intro h
    rw [← stableText_reparsed, ← stableText_sortKeys, h, stableText_sortKeys, stableText_reparsed]

end Wayfinder.Js
