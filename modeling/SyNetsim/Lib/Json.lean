import Mathlib.Algebra.Group.Nat.Defs
import Mathlib.Data.Int.Notation
import Mathlib.Data.List.Basic
import Mathlib.Tactic.SplitIfs

/-!
# JSON

A reader of JSON texts that hold objects, arrays, integers, and strings without escapes. A text that
holds anything else is refused. The reader reads what is put together from texts that it reads
(`Json.Reads`), whatever follows it.
-/

/-- A JSON value. The members of an object are kept in their order. -/
inductive Json where
  | num (z : ℤ)
  | str (s : List Char)
  | arr (elems : List Json)
  | obj (members : List (List Char × Json))

namespace Json

/-! ### The reader -/

/-- Whitespace. -/
def isBlank (c : Char) : Bool := c = ' ' || c = '\t' || c = '\n' || c = '\r'

/-- Leave out the whitespace at the start. -/
def skip (text : List Char) : List Char := text.dropWhile isBlank

/-- A character that stands for itself in a string. -/
def isPlain (c : Char) : Bool := c ≠ '"' && c ≠ '\\' && 32 ≤ c.toNat

/-- Read a string after its opening quote. -/
def readString (text : List Char) : Option (List Char × List Char) :=
  match text.dropWhile isPlain with
  | '"' :: rest => some (text.takeWhile isPlain, rest)
  | _ => none

/-- Read digits. A number of more than one digit does not start with zero. -/
def readNat (text : List Char) : Option (ℕ × List Char) :=
  let digits := text.takeWhile Char.isDigit
  if digits = [] ∨ (1 < digits.length ∧ digits.head? = some '0') then none
  else some (Nat.ofDigitChars 10 digits 0, text.dropWhile Char.isDigit)

/-- Read an integer. -/
def readInt (text : List Char) : Option (ℤ × List Char) :=
  if text.head? = some '-' then
    (readNat text.tail).map (fun (n, rest) => (-n, rest))
  else (readNat text).map (fun (n, rest) => (n, rest))

mutual

/-- Read a value, and give what follows it. -/
def readValue : ℕ → List Char → Option (Json × List Char)
  | 0, _ => none
  | fuel + 1, text =>
      match skip text with
      | [] => none
      | c :: rest =>
          if c = '"' then (readString rest).map (fun (s, rest) => (.str s, rest))
          else if c = '[' then
            match skip rest with
            | ']' :: rest => some (.arr [], rest)
            | _ => (readElems fuel rest).map (fun (elems, rest) => (.arr elems, rest))
          else if c = '\x7b' then
            match skip rest with
            | '\x7d' :: rest => some (.obj [], rest)
            | _ => (readMembers fuel rest).map (fun (members, rest) => (.obj members, rest))
          else (readInt (c :: rest)).map (fun (z, rest) => (.num z, rest))

/-- Read the elements of an array that has some, to its closing bracket. -/
def readElems : ℕ → List Char → Option (List Json × List Char)
  | 0, _ => none
  | fuel + 1, text => do
      let (v, rest) ← readValue fuel text
      match skip rest with
      | ',' :: rest =>
          let (elems, rest) ← readElems fuel rest
          return (v :: elems, rest)
      | ']' :: rest => return ([v], rest)
      | _ => none

/-- Read the members of an object that has some, to its closing brace. -/
def readMembers : ℕ → List Char → Option (List (List Char × Json) × List Char)
  | 0, _ => none
  | fuel + 1, text =>
      match skip text with
      | '"' :: rest => do
          let (key, rest) ← readString rest
          match skip rest with
          | ':' :: rest =>
              let (v, rest) ← readValue fuel rest
              match skip rest with
              | ',' :: rest =>
                  let (members, rest) ← readMembers fuel rest
                  return ((key, v) :: members, rest)
              | '\x7d' :: rest => return ([(key, v)], rest)
              | _ => none
          | _ => none
      | _ => none

end

/-- Read a text. No value is read with more steps than the text has characters. -/
def parse (text : List Char) : Option Json := do
  let (v, rest) ← readValue (text.length + 1) text
  if skip rest = [] then some v else none

/-! ### Whitespace and strings -/

@[simp]
theorem skip_space (text : List Char) :
  skip (' ' :: text) = skip text
  := rfl

/-- There is no whitespace to leave out. -/
theorem skip_cons {c : Char} (h : isBlank c = false) (text : List Char) :
  skip (c :: text) = c :: text
  := List.dropWhile_cons_of_neg (by rw [h]; apply Bool.false_ne_true)

/-- A string is read to its closing quote. -/
theorem readString_append {s : List Char} (h : s.all isPlain = true) (rest : List Char) :
  readString (s ++ '"' :: rest) = some (s, rest)
  := by
  rw [List.all_eq_true] at h
  have hquote : isPlain '"' = false := by decide
  have hdrop : (s ++ '"' :: rest).dropWhile isPlain = '"' :: rest := by
    rw [List.dropWhile_append_of_pos h, List.dropWhile_cons_of_neg (by simp [hquote])]
  have htake : (s ++ '"' :: rest).takeWhile isPlain = s := by
    rw [List.takeWhile_append_of_pos h, List.takeWhile_cons_of_neg (by simp [hquote]),
      List.append_nil]
  rw [readString, hdrop, htake]
  rfl

/-! ### Integers -/

/-- The decimal digits of an integer, with its sign. -/
def decimal (z : ℤ) : List Char :=
  if z < 0 then '-' :: Nat.toDigits 10 z.natAbs else Nat.toDigits 10 z.natAbs

theorem length_decimal_le {z : ℤ} {k : ℕ} (hk : 0 < k) (hz : z.natAbs < 10 ^ k) :
  (decimal z).length ≤ k + 1
  := by
  have hdigits := (Nat.length_toDigits_le_iff (by decide) hk).mpr hz
  rw [decimal]
  split_ifs
  · rw [List.length_cons]
    apply Nat.succ_le_succ hdigits
  · apply Nat.le_succ_of_le hdigits

/-- What follows a number is no digit. -/
def EndsNumber (rest : List Char) : Prop := ∀ c ∈ rest.head?, c.isDigit = false

theorem endsNumber_nil :
  EndsNumber []
  := by
  intro c hc
  contradiction

theorem endsNumber_cons {c : Char} (h : c.isDigit = false) (rest : List Char) :
  EndsNumber (c :: rest)
  := by
  intro c' hc'
  obtain rfl := Option.some.inj hc'
  apply h

/-- The digits of a positive number do not start with zero. -/
theorem head?_toDigits {n : ℕ} (h : 0 < n) :
  (Nat.toDigits 10 n).head? ≠ some '0'
  := by
  induction n using Nat.strongRecOn with
  | ind n ih =>
      by_cases hlt : n < 10
      · have hdigit : ∀ d < 10, 0 < d → some d.digitChar ≠ some '0' := by decide
        rw [Nat.toDigits_of_lt_base hlt, List.head?_cons]
        apply hdigit n hlt h
      · rw [Nat.toDigits_of_base_le (by decide) (Nat.not_lt.mp hlt),
          List.head?_append_of_ne_nil _ Nat.toDigits_ne_nil]
        apply ih (n / 10)
        · omega
        · omega

theorem isDigit_toDigits {n : ℕ} :
  ∀ c ∈ Nat.toDigits 10 n, c.isDigit = true
  := fun _ hc => Nat.isDigit_of_mem_toDigits (by decide) (by decide) hc

/-- The first character of the digits of a number is a digit. -/
theorem exists_toDigits_cons (n : ℕ) :
  ∃ c text, Nat.toDigits 10 n = c :: text ∧ c.isDigit = true
  := by
  obtain ⟨c, text, htext⟩ := List.exists_cons_of_ne_nil (Nat.toDigits_ne_nil (b := 10) (n := n))
  refine ⟨c, text, htext, ?_⟩
  apply isDigit_toDigits (n := n) c
  rw [htext]
  apply List.mem_cons_self

theorem readNat_append (n : ℕ) {rest : List Char} (hrest : EndsNumber rest) :
  readNat (Nat.toDigits 10 n ++ rest) = some (n, rest)
  := by
  have hstop : rest.takeWhile Char.isDigit = [] ∧ rest.dropWhile Char.isDigit = rest := by
    cases rest with
    | nil => exact ⟨rfl, rfl⟩
    | cons c rest =>
        have hc : ¬ c.isDigit = true := by
          rw [hrest c rfl]
          apply Bool.false_ne_true
        exact ⟨List.takeWhile_cons_of_neg hc, List.dropWhile_cons_of_neg hc⟩
  have htake : (Nat.toDigits 10 n ++ rest).takeWhile Char.isDigit = Nat.toDigits 10 n := by
    rw [List.takeWhile_append_of_pos isDigit_toDigits, hstop.1, List.append_nil]
  have hdrop : (Nat.toDigits 10 n ++ rest).dropWhile Char.isDigit = rest := by
    rw [List.dropWhile_append_of_pos isDigit_toDigits, hstop.2]
  have hproper : ¬ (Nat.toDigits 10 n = [] ∨
      (1 < (Nat.toDigits 10 n).length ∧ (Nat.toDigits 10 n).head? = some '0')) := by
    rintro (hnil | ⟨hlength, hzero⟩)
    · apply Nat.toDigits_ne_nil hnil
    · rcases Nat.eq_zero_or_pos n with rfl | hpos
      · rw [Nat.toDigits_zero] at hlength
        contradiction
      · apply head?_toDigits hpos hzero
  simp only [readNat, htake, hdrop, if_neg hproper, Nat.ofDigitChars_ten_toDigits]

/-- The first character of an integer is a sign or a digit. -/
theorem exists_decimal_cons (z : ℤ) :
  ∃ c text, decimal z = c :: text ∧ (c = '-' ∨ c.isDigit = true)
  := by
  rw [decimal]
  split_ifs with hz
  · exact ⟨_, _, rfl, Or.inl rfl⟩
  · obtain ⟨c, text, htext, hdigit⟩ := exists_toDigits_cons z.natAbs
    exact ⟨c, text, htext, Or.inr hdigit⟩

theorem readInt_append (z : ℤ) {rest : List Char} (hrest : EndsNumber rest) :
  readInt (decimal z ++ rest) = some (z, rest)
  := by
  rw [readInt, decimal]
  split_ifs with hz hminus hminus
  · rw [List.cons_append, List.tail_cons, readNat_append _ hrest, Option.map_some,
      Option.some.injEq, Prod.mk.injEq]
    exact ⟨by omega, rfl⟩
  · rw [List.cons_append, List.head?_cons] at hminus
    contradiction
  · -- Digits do not start with a sign.
    obtain ⟨c, text, htext, hdigit⟩ := exists_toDigits_cons z.natAbs
    rw [htext, List.cons_append, List.head?_cons, Option.some.injEq] at hminus
    rw [hminus] at hdigit
    contradiction
  · rw [readNat_append _ hrest, Option.map_some, Option.some.injEq, Prod.mk.injEq]
    exact ⟨by omega, rfl⟩

/-! ### What is read -/

/-- The text `text` is read as the value `v`, whatever follows it that is no digit. -/
def Reads (text : List Char) (v : Json) : Prop :=
  ∀ fuel rest, text.length < fuel → EndsNumber rest →
    readValue fuel (text ++ rest) = some (v, rest)

/-- The text `text` is read as the elements of an array. -/
def ReadsElems (text : List Char) (elems : List Json) : Prop :=
  ∀ fuel rest, text.length + 1 < fuel → readElems fuel (text ++ ']' :: rest) = some (elems, rest)

/-- The text `text` is read as the members of an object. -/
def ReadsMembers (text : List Char) (members : List (List Char × Json)) : Prop :=
  ∀ fuel rest, text.length < fuel →
    readMembers fuel (text ++ '\x7d' :: rest) = some (members, rest)

/-- A text that is read is read as one value. -/
theorem Reads.parse {text : List Char} {v : Json} (h : Reads text v) :
  parse text = some v
  := by
  have hread := h (text.length + 1) [] (Nat.lt_succ_self _) endsNumber_nil
  rw [List.append_nil] at hread
  rw [Json.parse, hread]
  rfl

/-! ### Values -/

theorem reads_decimal (z : ℤ) :
  Reads (decimal z) (.num z)
  := by
  intro fuel rest hfuel hrest
  obtain ⟨fuel, rfl⟩ := Nat.exists_eq_add_one_of_ne_zero (Nat.ne_zero_of_lt hfuel)
  obtain ⟨c, text, htext, hc⟩ := exists_decimal_cons z
  have hother : c ≠ '"' ∧ c ≠ '[' ∧ c ≠ '\x7b' ∧ isBlank c = false := by
    rcases hc with rfl | hdigit
    · decide
    · refine ⟨?_, ?_, ?_, ?_⟩
      · rintro rfl
        contradiction
      · rintro rfl
        contradiction
      · rintro rfl
        contradiction
      · by_contra hblank
        simp only [isBlank, Bool.not_eq_false, Bool.or_eq_true, decide_eq_true_eq] at hblank
        rcases hblank with ((rfl | rfl) | rfl) | rfl <;> contradiction
  obtain ⟨hquote, hbracket, hbrace, hblank⟩ := hother
  have hskip : skip (decimal z ++ rest) = c :: (text ++ rest) := by
    rw [htext, List.cons_append, skip_cons hblank]
  have hint := readInt_append z hrest
  rw [htext, List.cons_append] at hint
  simp only [readValue, hskip, if_neg hquote, if_neg hbracket, if_neg hbrace, hint,
    Option.map_some]

theorem reads_string {s : List Char} (h : s.all isPlain = true) :
  Reads ('"' :: (s ++ ['"'])) (.str s)
  := by
  intro fuel rest hfuel _
  obtain ⟨fuel, rfl⟩ := Nat.exists_eq_add_one_of_ne_zero (Nat.ne_zero_of_lt hfuel)
  rw [List.cons_append, List.append_assoc, List.singleton_append, readValue,
    skip_cons (by decide)]
  simp only [if_true, readString_append h, Option.map_some]

theorem readValue_space (fuel : ℕ) (text : List Char) :
  readValue fuel (' ' :: text) = readValue fuel text
  := by
  cases fuel with
  | zero => rfl
  | succ fuel => rw [readValue, readValue, skip_space]

/-- Whitespace may come before a value. -/
theorem Reads.space {text : List Char} {v : Json} (h : Reads text v) :
  Reads (' ' :: text) v
  := by
  intro fuel rest hfuel hrest
  rw [List.cons_append, readValue_space]
  apply h fuel rest (Nat.lt_of_succ_lt hfuel) hrest

/-! ### Arrays -/

theorem Reads.elem {text : List Char} {v : Json} (h : Reads text v) :
  ReadsElems text [v]
  := by
  intro fuel rest hfuel
  obtain ⟨fuel, rfl⟩ := Nat.exists_eq_add_one_of_ne_zero (Nat.ne_zero_of_lt hfuel)
  have hread := h fuel (']' :: rest) (by omega) (endsNumber_cons (by decide) rest)
  rw [readElems, hread]
  rfl

theorem ReadsElems.cons {text text' : List Char} {v : Json} {elems : List Json}
    (helems : ReadsElems text' elems) (h : Reads text v) :
  ReadsElems (text ++ ',' :: text') (v :: elems)
  := by
  intro fuel rest hfuel
  rw [List.length_append, List.length_cons] at hfuel
  obtain ⟨fuel, rfl⟩ := Nat.exists_eq_add_one_of_ne_zero (Nat.ne_zero_of_lt hfuel)
  have hread := h fuel (',' :: (text' ++ ']' :: rest)) (by omega) (endsNumber_cons (by decide) _)
  have hreads := helems fuel rest (by omega)
  rw [List.append_assoc, List.cons_append, readElems, hread]
  simp [skip_cons (show isBlank ',' = false by decide), hreads]

/-- Whitespace may come before an element. -/
theorem ReadsElems.space {text : List Char} {elems : List Json} (h : ReadsElems text elems) :
  ReadsElems (' ' :: text) elems
  := by
  intro fuel rest hfuel
  have hread := h fuel rest (Nat.lt_of_succ_lt hfuel)
  obtain ⟨fuel, rfl⟩ := Nat.exists_eq_add_one_of_ne_zero (Nat.ne_zero_of_lt hfuel)
  rw [readElems] at hread ⊢
  rw [List.cons_append, readValue_space]
  apply hread

/-- No elements start with a closing bracket. -/
theorem readElems_bracket (fuel : ℕ) {text rest : List Char} (h : skip text = ']' :: rest) :
  readElems fuel text = none
  := by
  have hnat : readNat (']' :: rest) = none := by
    rw [readNat, List.takeWhile_cons_of_neg (by decide)]
    rfl
  cases fuel with
  | zero => rfl
  | succ fuel =>
      have hvalue : readValue fuel text = none := by
        cases fuel with
        | zero => rfl
        | succ fuel => simp [readValue, h, readInt, hnat]
      rw [readElems, hvalue]
      rfl

theorem reads_arr_nil :
  Reads ['[', ']'] (.arr [])
  := by
  intro fuel rest hfuel _
  obtain ⟨fuel, rfl⟩ := Nat.exists_eq_add_one_of_ne_zero (Nat.ne_zero_of_lt hfuel)
  rfl

theorem ReadsElems.arr {text : List Char} {elems : List Json} (h : ReadsElems text elems) :
  Reads ('[' :: (text ++ [']'])) (.arr elems)
  := by
  intro fuel rest hfuel _
  rw [List.length_cons, List.length_append] at hfuel
  obtain ⟨fuel, rfl⟩ := Nat.exists_eq_add_one_of_ne_zero (Nat.ne_zero_of_lt hfuel)
  have hread := h fuel rest (by simpa using hfuel)
  have hopen : ∀ rest', skip (text ++ ']' :: rest) ≠ ']' :: rest' := by
    intro rest' hskip
    rw [readElems_bracket fuel hskip] at hread
    contradiction
  rw [List.cons_append, List.append_assoc, List.singleton_append, readValue,
    skip_cons (by decide)]
  simp only [Char.reduceEq, if_false, if_true, hread, Option.map_some]

/-! ### Objects -/

/-- A member of an object, with `n` spaces before the colon. -/
def member (key : List Char) (n : ℕ) (text : List Char) : List Char :=
  '"' :: (key ++ '"' :: (List.replicate n ' ' ++ ':' :: text))

theorem skip_replicate (n : ℕ) (text : List Char) :
  skip (List.replicate n ' ' ++ text) = skip text
  := by
  induction n with
  | zero => rfl
  | succ n ih => rw [List.replicate_succ, List.cons_append, skip_space, ih]

/-- What comes after the value of the first member. -/
theorem readMembers_member {key : List Char} (hkey : key.all isPlain = true) (n : ℕ)
    {text : List Char} {v : Json} (h : Reads text v) {fuel : ℕ} {rest : List Char}
    (hfuel : text.length < fuel) (hrest : EndsNumber rest) :
  readMembers (fuel + 1) (member key n text ++ rest) =
    match skip rest with
    | ',' :: rest => do
        let (members, rest) ← readMembers fuel rest
        return ((key, v) :: members, rest)
    | '\x7d' :: rest => some ([(key, v)], rest)
    | _ => none
  := by
  have hstring : readString (key ++ '"' :: (List.replicate n ' ' ++ ':' :: text) ++ rest) =
      some (key, List.replicate n ' ' ++ ':' :: (text ++ rest)) := by
    rw [List.append_assoc, List.cons_append, readString_append hkey, List.append_assoc,
      List.cons_append]
  have hread := h fuel rest hfuel hrest
  rw [readMembers, member, List.cons_append, skip_cons (by decide)]
  simp only [hstring, Option.bind_eq_bind, Option.bind_some, skip_replicate,
    skip_cons (show isBlank ':' = false by decide), hread]
  rfl

theorem Reads.member {key text : List Char} {v : Json} (hkey : key.all isPlain = true)
    (n : ℕ) (h : Reads text v) :
  ReadsMembers (Json.member key n text) [(key, v)]
  := by
  intro fuel rest hfuel
  obtain ⟨fuel, rfl⟩ := Nat.exists_eq_add_one_of_ne_zero (Nat.ne_zero_of_lt hfuel)
  have hlength : text.length < fuel := by
    simp only [Json.member, List.length_cons, List.length_append] at hfuel
    omega
  rw [readMembers_member hkey n h hlength (endsNumber_cons (by decide) rest),
    skip_cons (by decide)]
  rfl

theorem ReadsMembers.cons {key text text' : List Char} {v : Json}
    {members : List (List Char × Json)} (hmembers : ReadsMembers text' members)
    (hkey : key.all isPlain = true) (n : ℕ) (h : Reads text v) :
  ReadsMembers (Json.member key n text ++ ',' :: text') ((key, v) :: members)
  := by
  intro fuel rest hfuel
  obtain ⟨fuel, rfl⟩ := Nat.exists_eq_add_one_of_ne_zero (Nat.ne_zero_of_lt hfuel)
  have hlength : text.length < fuel ∧ text'.length < fuel := by
    simp only [Json.member, List.length_cons, List.length_append] at hfuel
    omega
  rw [List.append_assoc, List.cons_append,
    readMembers_member hkey n h hlength.1 (endsNumber_cons (by decide) _), skip_cons (by decide)]
  simp [hmembers fuel rest hlength.2]

/-- Whitespace may come before a member. -/
theorem ReadsMembers.space {text : List Char} {members : List (List Char × Json)}
    (h : ReadsMembers text members) :
  ReadsMembers (' ' :: text) members
  := by
  intro fuel rest hfuel
  have hread := h fuel rest (Nat.lt_of_succ_lt hfuel)
  obtain ⟨fuel, rfl⟩ := Nat.exists_eq_add_one_of_ne_zero (Nat.ne_zero_of_lt hfuel)
  rw [readMembers] at hread ⊢
  apply hread

/-- No members start with a closing brace. -/
theorem readMembers_brace (fuel : ℕ) {text rest : List Char} (h : skip text = '\x7d' :: rest) :
  readMembers fuel text = none
  := by
  cases fuel with
  | zero => rfl
  | succ fuel =>
      rw [readMembers, h]
      rfl

theorem ReadsMembers.obj {text : List Char} {members : List (List Char × Json)}
    (h : ReadsMembers text members) :
  Reads ('\x7b' :: (text ++ ['\x7d'])) (.obj members)
  := by
  intro fuel rest hfuel _
  rw [List.length_cons, List.length_append] at hfuel
  obtain ⟨fuel, rfl⟩ := Nat.exists_eq_add_one_of_ne_zero (Nat.ne_zero_of_lt hfuel)
  have hread := h fuel rest (by omega)
  have hopen : ∀ rest', skip (text ++ '\x7d' :: rest) ≠ '\x7d' :: rest' := by
    intro rest' hskip
    rw [readMembers_brace fuel hskip] at hread
    contradiction
  rw [List.cons_append, List.append_assoc, List.singleton_append, readValue,
    skip_cons (by decide)]
  simp only [Char.reduceEq, if_false, if_true, hread, Option.map_some]

end Json
