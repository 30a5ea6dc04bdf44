import Mathlib.Data.List.TakeWhile

/-!
# Base64 text

The encoding of bytes by four digits for three bytes, with `=` in the place of the digits a last
group of one or two bytes does not need. `decodeChars` reads such text back.

Results:
* `value_digit`: a digit has the value it was written for.
* **`decodeChars_encodeChars`**: decoding undoes encoding.
* `encodeChars_ne_nil`, `mem_encodeChars`: the text of some bytes is not empty and has digits and
  padding only.
-/

namespace GradidoConnector.Base.Base64

/-- The digit for a value below 64. -/
def digit (n : Nat) : Char :=
  if n < 26 then Char.ofNat (65 + n)
  else if n < 52 then Char.ofNat (97 + (n - 26))
  else if n < 62 then Char.ofNat (48 + (n - 52))
  else if n = 62 then '+'
  else '/'

/-- The value of a digit. -/
def value (c : Char) : Option Nat :=
  if 65 ≤ c.toNat ∧ c.toNat ≤ 90 then some (c.toNat - 65)
  else if 97 ≤ c.toNat ∧ c.toNat ≤ 122 then some (c.toNat - 97 + 26)
  else if 48 ≤ c.toNat ∧ c.toNat ≤ 57 then some (c.toNat - 48 + 52)
  else if c = '+' then some 62
  else if c = '/' then some 63
  else none

/-- The text of some bytes. -/
def encodeChars : List UInt8 → List Char
  | [] => []
  | [a] => [digit (a.toNat / 4), digit (a.toNat % 4 * 16), '=', '=']
  | [a, b] =>
    [digit (a.toNat / 4), digit (a.toNat % 4 * 16 + b.toNat / 16), digit (b.toNat % 16 * 4), '=']
  | a :: b :: c :: rest =>
    digit (a.toNat / 4) :: digit (a.toNat % 4 * 16 + b.toNat / 16) ::
      digit (b.toNat % 16 * 4 + c.toNat / 64) :: digit (c.toNat % 64) :: encodeChars rest

def encode (bin : List UInt8) : String := String.ofList (encodeChars bin)

/-- The bytes of a text, `none` for what is no base64. -/
def decodeChars : List Char → Option (List UInt8)
  | [] => some []
  | w :: x :: y :: z :: rest => do
    let a ← value w
    let b ← value x
    let first := UInt8.ofNat (a * 4 + b / 16)
    if y = '=' then
      if z = '=' ∧ rest = [] then some [first] else none
    else
      let c ← value y
      let second := UInt8.ofNat (b % 16 * 16 + c / 4)
      if z = '=' then
        if rest = [] then some [first, second] else none
      else
        let d ← value z
        let bin ← decodeChars rest
        some (first :: second :: UInt8.ofNat (c % 4 * 64 + d) :: bin)
  | _ => none

def decode (s : String) : Option (List UInt8) := decodeChars s.toList

theorem value_digit : ∀ n < 64, value (digit n) = some n := by decide

theorem digit_ne_padding : ∀ n < 64, digit n ≠ '=' := by decide

/-- **Decoding undoes encoding.** -/
theorem decodeChars_encodeChars (bin : List UInt8) : decodeChars (encodeChars bin) = some bin := by
  have hlt : ∀ a : UInt8, a.toNat < 256 := fun a => a.toNat_lt
  induction bin using encodeChars.induct with
  | case1 => rfl
  | case2 a =>
    have ha := hlt a
    simp only [encodeChars, decodeChars, value_digit (a.toNat / 4) (by omega),
      value_digit (a.toNat % 4 * 16) (by omega), Option.bind_eq_bind, Option.bind_some, if_true,
      and_self]
    rw [show a.toNat / 4 * 4 + a.toNat % 4 * 16 / 16 = a.toNat by omega, UInt8.ofNat_toNat]
  | case3 a b =>
    have ha := hlt a
    have hb := hlt b
    simp only [encodeChars, decodeChars, value_digit (a.toNat / 4) (by omega),
      value_digit (a.toNat % 4 * 16 + b.toNat / 16) (by omega),
      value_digit (b.toNat % 16 * 4) (by omega), digit_ne_padding (b.toNat % 16 * 4) (by omega),
      Option.bind_eq_bind, Option.bind_some, if_true, if_false]
    rw [show a.toNat / 4 * 4 + (a.toNat % 4 * 16 + b.toNat / 16) / 16 = a.toNat by omega,
      show (a.toNat % 4 * 16 + b.toNat / 16) % 16 * 16 + b.toNat % 16 * 4 / 4 = b.toNat by omega,
      UInt8.ofNat_toNat, UInt8.ofNat_toNat]
  | case4 a b c rest ih =>
    have ha := hlt a
    have hb := hlt b
    have hc := hlt c
    simp only [encodeChars, decodeChars, value_digit (a.toNat / 4) (by omega),
      value_digit (a.toNat % 4 * 16 + b.toNat / 16) (by omega),
      value_digit (b.toNat % 16 * 4 + c.toNat / 64) (by omega),
      value_digit (c.toNat % 64) (by omega),
      digit_ne_padding (b.toNat % 16 * 4 + c.toNat / 64) (by omega),
      digit_ne_padding (c.toNat % 64) (by omega), ih, Option.bind_eq_bind, Option.bind_some, if_false]
    rw [show a.toNat / 4 * 4 + (a.toNat % 4 * 16 + b.toNat / 16) / 16 = a.toNat by omega,
      show (a.toNat % 4 * 16 + b.toNat / 16) % 16 * 16 + (b.toNat % 16 * 4 + c.toNat / 64) / 4 =
        b.toNat by omega,
      show (b.toNat % 16 * 4 + c.toNat / 64) % 4 * 64 + c.toNat % 64 = c.toNat by omega,
      UInt8.ofNat_toNat, UInt8.ofNat_toNat, UInt8.ofNat_toNat]

theorem decode_encode (bin : List UInt8) : decode (encode bin) = some bin := by
  rw [decode, encode, String.toList_ofList, decodeChars_encodeChars]

theorem encodeChars_ne_nil {bin : List UInt8} (h : bin ≠ []) : encodeChars bin ≠ [] := by
  intro hnil
  have hdecoded := decodeChars_encodeChars bin
  rw [hnil] at hdecoded
  exact h (Option.some.inj hdecoded).symm

/-- The text has digits and padding only. -/
theorem mem_encodeChars {bin : List UInt8} {x : Char} (h : x ∈ encodeChars bin) :
    x = '=' ∨ ∃ n < 64, x = digit n := by
  induction bin using encodeChars.induct with
  | case1 => cases h
  | case2 a =>
    have ha := a.toNat_lt
    simp only [encodeChars, List.mem_cons, List.not_mem_nil, or_false] at h
    rcases h with rfl | rfl | rfl | rfl
    · exact Or.inr ⟨_, by omega, rfl⟩
    · exact Or.inr ⟨_, by omega, rfl⟩
    · exact Or.inl rfl
    · exact Or.inl rfl
  | case3 a b =>
    have ha := a.toNat_lt
    have hb := b.toNat_lt
    simp only [encodeChars, List.mem_cons, List.not_mem_nil, or_false] at h
    rcases h with rfl | rfl | rfl | rfl
    · exact Or.inr ⟨_, by omega, rfl⟩
    · exact Or.inr ⟨_, by omega, rfl⟩
    · exact Or.inr ⟨_, by omega, rfl⟩
    · exact Or.inl rfl
  | case4 a b c rest ih =>
    have ha := a.toNat_lt
    have hb := b.toNat_lt
    have hc := c.toNat_lt
    simp only [encodeChars, List.mem_cons] at h
    rcases h with rfl | rfl | rfl | rfl | h
    · exact Or.inr ⟨_, by omega, rfl⟩
    · exact Or.inr ⟨_, by omega, rfl⟩
    · exact Or.inr ⟨_, by omega, rfl⟩
    · exact Or.inr ⟨_, by omega, rfl⟩
    · exact ih h

/-! ## What can be decoded -/

def isDigit (c : Char) : Bool := (value c).isSome

/-- Groups of four that are all digits, but for a number of `=` at the end that satisfies `P`. -/
def Padded (P : Nat → Prop) (l : List Char) : Prop :=
  4 ∣ l.length ∧ ∃ body pad, P pad ∧ (∀ c ∈ body, isDigit c = true) ∧
    l = body ++ List.replicate pad '='

variable {P : Nat → Prop} {l rest : List Char} {a b c d : Char}

/-- The padding is what follows the digits. -/
theorem padded_iff :
    Padded P l ↔
      4 ∣ l.length ∧ P (l.dropWhile isDigit).length ∧ ∀ c ∈ l.dropWhile isDigit, c = '=' := by
  refine and_congr_right fun _ => ?_
  constructor
  · rintro ⟨body, pad, hpad, hbody, rfl⟩
    have hdrop : (body ++ List.replicate pad '=').dropWhile isDigit = List.replicate pad '=' := by
      rw [List.dropWhile_append_of_pos hbody, List.dropWhile_replicate, if_neg (by decide)]
    rw [hdrop, List.length_replicate]
    exact ⟨hpad, fun c hc => List.eq_of_mem_replicate hc⟩
  · rintro ⟨hpad, hall⟩
    refine ⟨l.takeWhile isDigit, _, hpad, fun c hc => List.mem_takeWhile_imp hc, ?_⟩
    rw [← List.eq_replicate_iff.mpr ⟨rfl, hall⟩, List.takeWhile_append_dropWhile]

/-- A group of four digits in front changes nothing. -/
theorem padded_group (ha : isDigit a = true) (hb : isDigit b = true) (hc : isDigit c = true)
    (hd : isDigit d = true) : Padded P (a :: b :: c :: d :: rest) ↔ Padded P rest := by
  rw [padded_iff, padded_iff, List.dropWhile_cons_of_pos ha, List.dropWhile_cons_of_pos hb,
    List.dropWhile_cons_of_pos hc, List.dropWhile_cons_of_pos hd]
  refine and_congr_left fun _ => ?_
  simp only [List.length_cons]
  omega

theorem eq_nil_of_group (hdvd : 4 ∣ (a :: b :: c :: d :: rest).length) (hlt : rest.length < 4) :
    rest = [] := by
  simp only [List.length_cons] at hdvd
  exact List.length_eq_zero_iff.mp (by omega)

/-- A group that is not four digits is the last one. -/
theorem padded_last (hP : ∀ n, P n → n ≤ 3)
    (h : ¬ (isDigit a = true ∧ isDigit b = true ∧ isDigit c = true ∧ isDigit d = true)) :
    Padded P (a :: b :: c :: d :: rest) ↔
      rest = [] ∧ isDigit a = true ∧ d = '=' ∧
        ((P 1 ∧ isDigit b = true ∧ isDigit c = true) ∨ (P 2 ∧ isDigit b = true ∧ c = '=') ∨
          (P 3 ∧ b = '=' ∧ c = '=')) := by
  have hpadding : ¬ isDigit '=' = true := by decide
  rw [padded_iff]
  by_cases ha : isDigit a = true
  · rw [List.dropWhile_cons_of_pos ha]
    by_cases hb : isDigit b = true
    · rw [List.dropWhile_cons_of_pos hb]
      by_cases hc : isDigit c = true
      · have hd : ¬ isDigit d = true := fun hd => h ⟨ha, hb, hc, hd⟩
        rw [List.dropWhile_cons_of_pos hc, List.dropWhile_cons_of_neg hd]
        constructor
        · rintro ⟨hdvd, hpad, hall⟩
          have hle := hP _ hpad
          rw [List.length_cons] at hle
          obtain rfl := eq_nil_of_group hdvd (by omega)
          exact ⟨rfl, ha, hall d (by simp), Or.inl ⟨hpad, hb, hc⟩⟩
        · rintro ⟨rfl, -, rfl, ⟨hpad, -, -⟩ | ⟨-, -, rfl⟩ | ⟨-, rfl, -⟩⟩
          · exact ⟨Nat.dvd_refl 4, hpad, by simp⟩
          · exact absurd hc hpadding
          · exact absurd hb hpadding
      · rw [List.dropWhile_cons_of_neg hc]
        constructor
        · rintro ⟨hdvd, hpad, hall⟩
          have hle := hP _ hpad
          rw [List.length_cons, List.length_cons] at hle
          obtain rfl := eq_nil_of_group hdvd (by omega)
          exact ⟨rfl, ha, hall d (by simp), Or.inr (Or.inl ⟨hpad, hb, hall c (by simp)⟩)⟩
        · rintro ⟨rfl, -, rfl, ⟨-, -, hc'⟩ | ⟨hpad, -, rfl⟩ | ⟨-, rfl, -⟩⟩
          · exact absurd hc' hc
          · exact ⟨Nat.dvd_refl 4, hpad, by simp⟩
          · exact absurd hb hpadding
    · rw [List.dropWhile_cons_of_neg hb]
      constructor
      · rintro ⟨hdvd, hpad, hall⟩
        have hle := hP _ hpad
        rw [List.length_cons, List.length_cons, List.length_cons] at hle
        obtain rfl := eq_nil_of_group hdvd (by omega)
        exact ⟨rfl, ha, hall d (by simp), Or.inr (Or.inr ⟨hpad, hall b (by simp), hall c (by simp)⟩)⟩
      · rintro ⟨rfl, -, rfl, ⟨-, hb', -⟩ | ⟨-, hb', -⟩ | ⟨hpad, rfl, rfl⟩⟩
        · exact absurd hb' hb
        · exact absurd hb' hb
        · exact ⟨Nat.dvd_refl 4, hpad, by simp⟩
  · rw [List.dropWhile_cons_of_neg ha]
    refine iff_of_false (fun hl => ?_) fun hr => ha hr.2.1
    have hle := hP _ hl.2.1
    simp only [List.length_cons] at hle
    omega

/-- Induction by groups of four. -/
theorem group_induction {motive : List Char → Prop} (nil : motive [])
    (short : ∀ l, ¬ 4 ∣ l.length → l.length < 4 → motive l)
    (group : ∀ a b c d rest, motive rest → motive (a :: b :: c :: d :: rest)) :
    ∀ l, motive l
  | [] => nil
  | [_] => short _ (by simp) (by simp)
  | [_, _] => short _ (by simp) (by simp)
  | [_, _, _] => short _ (by simp) (by simp)
  | a :: b :: c :: d :: rest => group a b c d rest (group_induction nil short group rest)

theorem ne_padding_of_isDigit (h : isDigit c = true) : c ≠ '=' := by
  rintro rfl
  exact absurd h (by decide)

/-- A group of four digits is decoded with what follows it. -/
theorem isSome_decodeChars_group (ha : isDigit a = true) (hb : isDigit b = true)
    (hc : isDigit c = true) (hd : isDigit d = true) :
    (decodeChars (a :: b :: c :: d :: rest)).isSome = (decodeChars rest).isSome := by
  obtain ⟨va, hva⟩ := Option.isSome_iff_exists.mp ha
  obtain ⟨vb, hvb⟩ := Option.isSome_iff_exists.mp hb
  obtain ⟨vc, hvc⟩ := Option.isSome_iff_exists.mp hc
  obtain ⟨vd, hvd⟩ := Option.isSome_iff_exists.mp hd
  rw [decodeChars]
  simp only [hva, hvb, hvc, hvd, if_neg (ne_padding_of_isDigit hc), if_neg (ne_padding_of_isDigit hd),
    Option.bind_eq_bind, Option.bind_some]
  cases decodeChars rest <;> rfl

/-- Any other group is decoded as the last one, with one or two `=`. -/
theorem isSome_decodeChars_last
    (h : ¬ (isDigit a = true ∧ isDigit b = true ∧ isDigit c = true ∧ isDigit d = true)) :
    (decodeChars (a :: b :: c :: d :: rest)).isSome = true ↔
      rest = [] ∧ isDigit a = true ∧ d = '=' ∧
        ((isDigit b = true ∧ isDigit c = true) ∨ (isDigit b = true ∧ c = '=')) := by
  rw [decodeChars]
  simp only [isDigit] at h ⊢
  cases ha : value a with
  | none => simp
  | some va =>
    cases hb : value b with
    | none => simp
    | some vb =>
      simp only [Option.bind_eq_bind, Option.bind_some, Option.isSome_some, true_and]
      by_cases hpad : c = '='
      · rw [if_pos hpad]
        by_cases hlast : d = '=' ∧ rest = []
        · rw [if_pos hlast]
          exact iff_of_true rfl ⟨hlast.2, hlast.1, Or.inr hpad⟩
        · rw [if_neg hlast]
          exact iff_of_false Bool.false_ne_true fun hr => hlast ⟨hr.2.1, hr.1⟩
      · rw [if_neg hpad]
        cases hc : value c with
        | none => simp [hpad]
        | some vc =>
          rw [Option.bind_some]
          by_cases hd : d = '='
          · rw [if_pos hd]
            by_cases hrest : rest = []
            · rw [if_pos hrest]
              exact iff_of_true rfl ⟨hrest, hd, Or.inl rfl⟩
            · rw [if_neg hrest]
              exact iff_of_false Bool.false_ne_true fun hr => hrest hr.1
          · -- three digits, so the last character is none
            have hnone : value d = none := by
              rw [ha, hb, hc] at h
              simpa using h
            rw [if_neg hd, hnone]
            exact iff_of_false Bool.false_ne_true fun hr => hd hr.2.1

/-- **What can be decoded**: groups of four with at most two `=` at the end. -/
theorem decodeChars_isSome_iff (l : List Char) :
    (decodeChars l).isSome = true ↔ Padded (· ≤ 2) l := by
  induction l using group_induction with
  | nil => exact iff_of_true rfl ⟨Nat.dvd_zero 4, [], 0, Nat.zero_le 2, by simp, rfl⟩
  | short l hdvd hlt =>
    refine iff_of_false ?_ fun h => hdvd h.1
    match l, hlt with
    | [], _ => exact absurd (Nat.dvd_zero 4) hdvd
    | [_], _ => exact Bool.false_ne_true
    | [_, _], _ => exact Bool.false_ne_true
    | [_, _, _], _ => exact Bool.false_ne_true
  | group a b c d rest ih =>
    by_cases hall : isDigit a = true ∧ isDigit b = true ∧ isDigit c = true ∧ isDigit d = true
    · obtain ⟨ha, hb, hc, hd⟩ := hall
      rw [padded_group ha hb hc hd, isSome_decodeChars_group ha hb hc hd, ih]
    · rw [padded_last (fun n hn => Nat.le_succ_of_le hn) hall, isSome_decodeChars_last hall]
      simp

end GradidoConnector.Base.Base64
