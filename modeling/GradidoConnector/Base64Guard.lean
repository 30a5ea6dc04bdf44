import GradidoConnector.Base.CharClass
import GradidoConnector.MemoRoundTrip

/-!
# The base64 guard

`JsonListTransactions::handle` decrypts the memos that `g_base64RegExp` matches, and `decryptMemo`
does not look at the result of `base64ToBin` before it uses it. `Base64.Padded` says how many `=`
end a text of base64 digits in groups of four; `WellFormed` allows for two.

The last alternative of the expression, `[a-zA-Z0-9+/]{1}===`, is no base64: a group of one digit
holds no byte (`ThreePadded`).

Results:
* `mem_g_base64RegExp`, `isBase64_iff`: the language of the expression, and that the guard of the
  handler decides it.
* `callsDecryptMemo_iff`: which texts are decrypted.
* **`base64Guard_iff`**: the guard does what it is there for exactly on what is not `ThreePadded`,
  and lets all encrypted memos pass.
-/

namespace GradidoConnector

open GradidoConnector.Base GradidoConnector.Base.CharClass

open JsonTransaction JsonListTransactions

namespace Base64Guard

/-! ## The expression -/

/-- `[a-zA-Z0-9+/]` -/
def base64Class : List Char := range 'a' 'z' ++ range 'A' 'Z' ++ range '0' '9' ++ ['+', '/']

/--
`^(?:[a-zA-Z0-9+/]{4})*(?:|(?:[a-zA-Z0-9+/]{3}=)|(?:[a-zA-Z0-9+/]{2}==)|(?:[a-zA-Z0-9+/]{1}===))$`
-/
def g_base64RegExp : RegularExpression Char :=
  .star (oneOf base64Class ^ 4) *
    (1 + oneOf base64Class ^ 3 * literal ['='] + oneOf base64Class ^ 2 * literal ['=', '='] +
      oneOf base64Class ^ 1 * literal ['=', '=', '='])

/-- `g_base64RegExp.match(s)`: all of a text that is not empty. -/
def Matches (s : String) : Prop := s ≠ "" ∧ s.toList ∈ g_base64RegExp.matches'

/-- Padded base64. -/
def WellFormed (s : String) : Prop := Base64.Padded (· ≤ 2) s.toList

/-- The last group is one digit and `===`. -/
def ThreePadded (s : String) : Prop := Base64.Padded (· = 3) s.toList

/-! ## The digits -/

theorem toNat_lt_of_isDigit {c : Char} (h : Base64.isDigit c = true) : c.toNat < 128 := by
  unfold Base64.isDigit Base64.value at h
  split at h
  · omega
  · split at h
    · omega
    · split at h
      · omega
      · split at h
        · subst c
          decide
        · split at h
          · subst c
            decide
          · cases h

theorem toNat_lt_of_isBase64Char {c : Char} (h : isBase64Char c = true) : c.toNat < 128 := by
  have hclasses : (c.isUpper || c.isLower || c.isDigit || c == '+' || c == '/') = true := h
  simp only [Bool.or_eq_true, beq_iff_eq] at hclasses
  rcases hclasses with ((((h | h) | h) | rfl) | rfl)
  · have hle : c.val ≤ 'Z'.val := (of_decide_eq_true h).2
    exact Nat.lt_of_le_of_lt (UInt32.le_iff_toNat_le.mp hle) (by decide)
  · have hle : c.val ≤ 'z'.val := of_decide_eq_true (Bool.and_eq_true_iff.mp h).2
    exact Nat.lt_of_le_of_lt (UInt32.le_iff_toNat_le.mp hle) (by decide)
  · exact Nat.lt_of_le_of_lt (Char.isDigit_iff_toNat.mp h).2 (by decide)
  · decide
  · decide

theorem isBase64Char_iff {c : Char} : isBase64Char c = true ↔ Base64.isDigit c = true := by
  have hagree : ∀ c : Char, c.toNat < 128 →
      (isBase64Char c = true ↔ Base64.isDigit c = true) := fun c =>
    of_ascii (fun c => isBase64Char c = true ↔ Base64.isDigit c = true) (by decide)
  exact ⟨fun h => (hagree c (toNat_lt_of_isBase64Char h)).mp h,
    fun h => (hagree c (toNat_lt_of_isDigit h)).mpr h⟩

theorem mem_base64Class {c : Char} : c ∈ base64Class ↔ Base64.isDigit c = true := by
  have hdigits : ∀ c ∈ base64Class, Base64.isDigit c = true := List.all_eq_true.mp (by decide)
  have hlisted : ∀ c : Char, c.toNat < 128 → Base64.isDigit c = true → c ∈ base64Class := fun c =>
    of_ascii (fun c => Base64.isDigit c = true → c ∈ base64Class) (by decide)
  exact ⟨hdigits c, fun h => hlisted c (toNat_lt_of_isDigit h) h⟩

/-! ## The language of the expression -/

section Language

variable {w x y body : List Char} {n pad : Nat}

theorem mem_digits_literal {l : List Char} :
    y ∈ (oneOf base64Class ^ n * literal l).matches' ↔
      ∃ body, body.length = n ∧ (∀ c ∈ body, Base64.isDigit c = true) ∧ y = body ++ l := by
  rw [RegularExpression.matches'_mul, Language.mem_mul]
  constructor
  · rintro ⟨body, hbody, rest, hrest, rfl⟩
    obtain ⟨hlen, hall⟩ := mem_pow_oneOf.mp hbody
    exact ⟨body, hlen, fun c hc => mem_base64Class.mp (hall c hc), by rw [mem_literal.mp hrest]⟩
  · rintro ⟨body, hlen, hall, rfl⟩
    exact ⟨body, mem_pow_oneOf.mpr ⟨hlen, fun c hc => mem_base64Class.mpr (hall c hc)⟩, l,
      mem_literal.mpr rfl, rfl⟩

/-- The alternatives for the last group: none, or digits that some `=` fill up to four. -/
theorem mem_alternatives :
    y ∈ (1 + oneOf base64Class ^ 3 * literal ['='] + oneOf base64Class ^ 2 * literal ['=', '='] +
        oneOf base64Class ^ 1 * literal ['=', '=', '=']).matches' ↔
      y = [] ∨ ∃ n pad, n + pad = 4 ∧ 1 ≤ pad ∧ pad ≤ 3 ∧ ∃ body, body.length = n ∧
        (∀ c ∈ body, Base64.isDigit c = true) ∧ y = body ++ List.replicate pad '=' := by
  simp only [RegularExpression.matches'_add, Language.mem_add, mem_digits_literal]
  constructor
  · rintro (((h | h) | h) | h)
    · exact Or.inl h
    · exact Or.inr ⟨3, 1, rfl, by decide, by decide, h⟩
    · exact Or.inr ⟨2, 2, rfl, by decide, by decide, h⟩
    · exact Or.inr ⟨1, 3, rfl, by decide, by decide, h⟩
  · rintro (h | ⟨n, pad, hn, hpos, hle, h⟩)
    · exact Or.inl (Or.inl (Or.inl h))
    · obtain rfl | rfl | rfl : pad = 1 ∨ pad = 2 ∨ pad = 3 := by omega
      · obtain rfl : n = 3 := by omega
        exact Or.inl (Or.inl (Or.inr h))
      · obtain rfl : n = 2 := by omega
        exact Or.inl (Or.inr h)
      · obtain rfl : n = 1 := by omega
        exact Or.inr h

theorem mem_groups :
    x ∈ (RegularExpression.star (oneOf base64Class ^ 4)).matches' ↔
      4 ∣ x.length ∧ ∀ c ∈ x, Base64.isDigit c = true := by
  rw [mem_star_pow_oneOf]
  exact and_congr_right fun _ => forall₂_congr fun _ _ => mem_base64Class

/-- **The language of `g_base64RegExp`**: up to three `=`. -/
theorem mem_g_base64RegExp : w ∈ g_base64RegExp.matches' ↔ Base64.Padded (· ≤ 3) w := by
  rw [g_base64RegExp, RegularExpression.matches'_mul, Language.mem_mul]
  constructor
  · rintro ⟨x, hx, y, hy, rfl⟩
    obtain ⟨hdvd, hall⟩ := mem_groups.mp hx
    rcases mem_alternatives.mp hy with rfl | ⟨n, pad, hn, -, hle, body, hlen, hbody, rfl⟩
    · rw [List.append_nil]
      exact ⟨hdvd, x, 0, Nat.zero_le 3, hall, (List.append_nil x).symm⟩
    · refine ⟨?_, x ++ body, pad, hle, List.forall_mem_append.mpr ⟨hall, hbody⟩,
        (List.append_assoc _ _ _).symm⟩
      rw [List.length_append, List.length_append, List.length_replicate, hlen, hn]
      exact Nat.dvd_add hdvd (Nat.dvd_refl 4)
  · rintro ⟨hdvd, body, pad, hle, hall, rfl⟩
    rw [List.length_append, List.length_replicate] at hdvd
    by_cases hzero : pad = 0
    · subst hzero
      exact ⟨body, mem_groups.mpr ⟨hdvd, hall⟩, [], mem_alternatives.mpr (Or.inl rfl), rfl⟩
    · -- the last digits make a group with the padding
      have htake : (body.take (body.length + pad - 4)).length = body.length + pad - 4 := by
        rw [List.length_take]
        omega
      have hdrop : (body.drop (body.length + pad - 4)).length = 4 - pad := by
        rw [List.length_drop]
        omega
      refine ⟨body.take (body.length + pad - 4), mem_groups.mpr ⟨?_, ?_⟩,
        body.drop (body.length + pad - 4) ++ List.replicate pad '=', mem_alternatives.mpr (Or.inr
          ⟨4 - pad, pad, by omega, by omega, hle, _, hdrop, ?_, rfl⟩), ?_⟩
      · rw [htake]
        omega
      · exact fun c hc => hall c (List.mem_of_mem_take hc)
      · exact fun c hc => hall c (List.mem_of_mem_drop hc)
      · rw [← List.append_assoc, List.take_append_drop]

end Language

/-! ## The guard -/

theorem base64RegExp_short {l : List Char} (hdvd : ¬ 4 ∣ l.length) (hlt : l.length < 4) :
    base64RegExp l = false := by
  match l, hlt with
  | [], _ => exact absurd (Nat.dvd_zero 4) hdvd
  | [_], _ => rfl
  | [_, _], _ => rfl
  | [_, _, _], _ => rfl

/-- The recursion of the handler's guard. -/
theorem base64RegExp_iff (l : List Char) : base64RegExp l = true ↔ Base64.Padded (· ≤ 3) l := by
  induction l using Base64.group_induction with
  | nil => exact iff_of_true rfl ⟨Nat.dvd_zero 4, [], 0, Nat.zero_le 3, by simp, rfl⟩
  | short l hdvd hlt =>
    refine iff_of_false ?_ fun h => hdvd h.1
    rw [base64RegExp_short hdvd hlt]
    exact Bool.false_ne_true
  | group a b c d rest ih =>
    by_cases hall : Base64.isDigit a = true ∧ Base64.isDigit b = true ∧ Base64.isDigit c = true ∧
        Base64.isDigit d = true
    · obtain ⟨ha, hb, hc, hd⟩ := hall
      rw [Base64.padded_group ha hb hc hd, ← ih, base64RegExp, if_pos]
      simp only [Bool.and_eq_true, isBase64Char_iff]
      exact ⟨⟨⟨ha, hb⟩, hc⟩, hd⟩
    · rw [Base64.padded_last (fun _ hn => hn) hall, base64RegExp, if_neg]
      · simp only [Bool.and_eq_true, Bool.or_eq_true, isBase64Char_iff, List.isEmpty_iff, beq_iff_eq]
        constructor
        · rintro ⟨⟨⟨ha, hrest⟩, hd⟩, (hbc | hbc) | hbc⟩
          · exact ⟨hrest, ha, hd, Or.inl ⟨by decide, hbc⟩⟩
          · exact ⟨hrest, ha, hd, Or.inr (Or.inl ⟨by decide, hbc⟩)⟩
          · exact ⟨hrest, ha, hd, Or.inr (Or.inr ⟨by decide, hbc⟩)⟩
        · rintro ⟨hrest, ha, hd, ⟨-, hbc⟩ | ⟨-, hbc⟩ | ⟨-, hbc⟩⟩
          · exact ⟨⟨⟨ha, hrest⟩, hd⟩, Or.inl (Or.inl hbc)⟩
          · exact ⟨⟨⟨ha, hrest⟩, hd⟩, Or.inl (Or.inr hbc)⟩
          · exact ⟨⟨⟨ha, hrest⟩, hd⟩, Or.inr hbc⟩
      · simp only [Bool.and_eq_true, isBase64Char_iff]
        exact fun h => hall ⟨h.1.1.1, h.1.1.2, h.1.2, h.2⟩

theorem isBase64_iff {s : String} : isBase64 s = true ↔ Matches s := by
  rw [isBase64, Bool.and_eq_true, base64RegExp_iff, Matches, mem_g_base64RegExp,
    Bool.not_eq_true', ← Bool.not_eq_true, String.isEmpty_iff]

/-- A text that is decrypted ends the process with a decoder that takes nothing. -/
def CallsDecryptMemo (lib : Library) (privateKey : Bytes) (pubkeyHex s : String) : Prop :=
  readMemo { lib with base64ToBin := fun _ => none } privateKey pubkeyHex s =
    .error (.crash "encryptedMemoBin")

/-- The expression matches the text exactly if it is padded base64, and what is decrypted
can be decoded. -/
structure Guards (lib : Library) (privateKey : Bytes) (pubkeyHex s : String) : Prop where
  accepts : Matches s ↔ WellFormed s
  decodes : CallsDecryptMemo lib privateKey pubkeyHex s → (Base64.decode s).isSome = true

section Guard

variable {lib : Library} {privateKey : Bytes} {pubkeyHex s : String}

/-- **Which texts are decrypted**: those the expression matches, if the key is hex. -/
theorem callsDecryptMemo_iff :
    CallsDecryptMemo lib privateKey pubkeyHex s ↔
      Matches s ∧ (lib.hexToBin pubkeyHex).isSome = true := by
  rw [CallsDecryptMemo, readMemo, ← isBase64_iff]
  by_cases hmatch : isBase64 s = true
  · rw [if_pos hmatch]
    cases lib.hexToBin pubkeyHex with
    | none => exact iff_of_false (fun h => by cases h) fun h => Bool.false_ne_true h.2
    | some pubkey => exact iff_of_true rfl ⟨hmatch, rfl⟩
  · rw [if_neg hmatch]
    exact iff_of_false (fun h => by cases h) fun h => hmatch h.1

theorem decode_isSome_iff : (Base64.decode s).isSome = true ↔ WellFormed s :=
  Base64.decodeChars_isSome_iff s.toList

/-- What the expression takes is well-formed or ends in `===`. -/
theorem matches_iff (hs : s ≠ "") : Matches s ↔ WellFormed s ∨ ThreePadded s := by
  rw [Matches, mem_g_base64RegExp, and_iff_right hs, WellFormed, ThreePadded]
  constructor
  · rintro ⟨hdvd, body, pad, hle, htext⟩
    by_cases hthree : pad = 3
    · exact Or.inr ⟨hdvd, body, pad, hthree, htext⟩
    · exact Or.inl ⟨hdvd, body, pad, Nat.le_of_lt_succ (Nat.lt_of_le_of_ne hle hthree), htext⟩
  · rintro (⟨hdvd, body, pad, hle, htext⟩ | ⟨hdvd, body, pad, rfl, htext⟩)
    · exact ⟨hdvd, body, pad, Nat.le_succ_of_le hle, htext⟩
    · exact ⟨hdvd, body, 3, Nat.le_refl 3, htext⟩

theorem not_wellFormed_of_threePadded (h : ThreePadded s) : ¬ WellFormed s := by
  intro hwell
  have hthree := (Base64.padded_iff.mp h).2.1
  have htwo := (Base64.padded_iff.mp hwell).2.1
  rw [hthree] at htwo
  exact absurd htwo (by decide)

theorem guards_iff (hs : s ≠ "") : Guards lib privateKey pubkeyHex s ↔ ¬ ThreePadded s := by
  constructor
  · intro h hthree
    exact not_wellFormed_of_threePadded hthree (h.accepts.mp ((matches_iff hs).mpr (Or.inr hthree)))
  · intro hnot
    have haccepts : Matches s ↔ WellFormed s :=
      (matches_iff hs).trans (or_iff_left hnot)
    exact ⟨haccepts, fun hcalls =>
      decode_isSome_iff.mpr (haccepts.mp (callsDecryptMemo_iff.mp hcalls).1)⟩

/-- Encrypted memos pass. -/
theorem matches_encryptMemo (hencode : ∀ bin, lib.binToBase64 bin = Base64.encode bin)
    (hencrypt : ∀ privateKey publicKey memo, lib.encrypt privateKey publicKey memo ≠ [])
    (memo : String) (ed25519Pubkey ed25519Privkey : Bytes) :
    Matches (encryptMemo lib memo ed25519Pubkey ed25519Privkey) := by
  rw [encryptMemo, hencode]
  exact isBase64_iff.mp (isBase64_encode (hencrypt _ _ _))

end Guard

/-- **The guard takes exactly the padded base64**, so that nothing is decrypted that cannot be
decoded, except for the texts whose last group is one digit and `===`. All encrypted memos pass. -/
theorem base64Guard_iff (lib : Library) :
    (∀ privateKey pubkeyHex s, s ≠ "" →
      (Guards lib privateKey pubkeyHex s ↔ ¬ ThreePadded s)) ∧
    ((∀ bin, lib.binToBase64 bin = Base64.encode bin) →
      (∀ privateKey publicKey memo, lib.encrypt privateKey publicKey memo ≠ []) →
      ∀ memo ed25519Pubkey ed25519Privkey,
        Matches (encryptMemo lib memo ed25519Pubkey ed25519Privkey)) :=
  ⟨fun _ _ _ hs => guards_iff hs, fun hencode hencrypt memo ed25519Pubkey ed25519Privkey =>
    matches_encryptMemo hencode hencrypt memo ed25519Pubkey ed25519Privkey⟩

/-- Two letters and an encrypted memo. -/
theorem base64Guard_iff_boxLibrary :
    Guards boxLibrary [] "ab" "QUI=" ∧ Matches (encryptMemo boxLibrary "memo" [] []) := by
  have hnot : ¬ ThreePadded "QUI=" := fun h => absurd (Base64.padded_iff.mp h).2.1 (by decide)
  obtain ⟨hguard, hmemo⟩ := base64Guard_iff boxLibrary
  exact ⟨(hguard [] "ab" "QUI=" (by decide)).mpr hnot,
    hmemo (fun _ => rfl) (fun _ _ _ => List.cons_ne_nil _ _) "memo" [] []⟩

/-- **A memo of one digit and `===`** is matched and decrypted, though it cannot be decoded. -/
theorem one_digit_decrypted :
    Matches "A===" ∧ Base64.decode "A===" = none ∧
    readMemo boxLibrary [] "ab" "A===" = .error (.crash "encryptedMemoBin") ∧
    ¬ Guards boxLibrary [] "ab" "A===" := by
  have hmatches : Matches "A===" := isBase64_iff.mp (by decide)
  have hdecode : Base64.decode "A===" = none := by decide
  refine ⟨hmatches, hdecode, by decide, fun h => ?_⟩
  have hsome := decode_isSome_iff.mpr (h.accepts.mp hmatches)
  rw [hdecode] at hsome
  exact Bool.false_ne_true hsome

end Base64Guard

end GradidoConnector
