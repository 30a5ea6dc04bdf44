import Mathlib.Data.List.Basic

/-!
# SQL `LIKE` patterns

`like escape fold pat text` is SQL's `text LIKE pat` in a dialect that takes the character after
`escape` for itself and compares the characters after `fold`. `%` matches any run of characters, `_`
any one character, every other character what folds to the same.

Results:
* `matchChars_map_char`: a pattern of characters matches exactly the texts that fold to the same.
* **`like_iff_map_eq`**: so does every pattern without wildcards and escapes.
-/

namespace GradidoConnector.Base

/-- What a part of a pattern matches. -/
inductive Wildcard
  | run
  | one
  | char (c : Char)
  deriving DecidableEq

def Wildcard.of (c : Char) : Wildcard :=
  if c = '%' then .run else if c = '_' then .one else .char c

/-- The parts of a pattern. An escape character at its end stands for itself. -/
def wildcards (escape : Option Char) : List Char → List Wildcard
  | [] => []
  | [c] => [.of c]
  | c :: d :: pat =>
    if some c = escape then .char d :: wildcards escape pat
    else .of c :: wildcards escape (d :: pat)

/-- The parts match the text. -/
def matchChars (fold : Char → Char) : List Wildcard → List Char → Bool
  | [], text => text.isEmpty
  | .run :: pat, text => text.tails.any (matchChars fold pat)
  | .one :: pat, text =>
    match text with
    | [] => false
    | _ :: text => matchChars fold pat text
  | .char c :: pat, text =>
    match text with
    | [] => false
    | d :: text => fold c == fold d && matchChars fold pat text

/-- `text LIKE pat` -/
def like (escape : Option Char) (fold : Char → Char) (pat text : String) : Bool :=
  matchChars fold (wildcards escape pat.toList) text.toList

/-- The character stands for itself in a pattern. -/
def Literal (escape : Option Char) (c : Char) : Prop := c ≠ '%' ∧ c ≠ '_' ∧ some c ≠ escape

variable {escape : Option Char} {fold : Char → Char}

theorem wildcards_of_literal {pat : List Char} (h : ∀ c ∈ pat, Literal escape c) :
    wildcards escape pat = pat.map .char := by
  have hof : ∀ c ∈ pat, Wildcard.of c = .char c := by
    intro c hc
    obtain ⟨hrun, hone, -⟩ := h c hc
    rw [Wildcard.of, if_neg hrun, if_neg hone]
  induction pat with
  | nil => rfl
  | cons c pat ih =>
    rw [List.forall_mem_cons] at h hof
    cases pat with
    | nil => rw [wildcards, hof.1, List.map_singleton]
    | cons d pat =>
      rw [wildcards, if_neg h.1.2.2, hof.1, ih h.2 hof.2]
      rfl

/-- A pattern of characters matches exactly the texts that fold to the same. -/
theorem matchChars_map_char (pat text : List Char) :
    matchChars fold (pat.map .char) text = true ↔ text.map fold = pat.map fold := by
  induction pat generalizing text with
  | nil => simp [matchChars]
  | cons c pat ih =>
    cases text with
    | nil => simp [matchChars]
    | cons d text =>
      rw [List.map_cons, List.map_cons, List.map_cons, List.cons.injEq, ← ih]
      simp [matchChars, @eq_comm _ (fold d)]

/-- **A pattern without wildcards and escapes matches exactly the texts that fold to the same.** -/
theorem like_iff_map_eq {pat : String} (h : ∀ c ∈ pat.toList, Literal escape c) (text : String) :
    like escape fold pat text = true ↔ text.toList.map fold = pat.toList.map fold := by
  rw [like, wildcards_of_literal h, matchChars_map_char]

end GradidoConnector.Base
