import GradidoConnector.Base.Like

/-!
# How a database compares texts

`LIKE`, `=` and the unique keys compare texts as the columns are collated. What they do beyond the
plain characters is up to the database and its configuration: MySQL takes `gdd` and `GDD` for the
same unless the collation of the columns is a binary one, and the backslash in a pattern for an
escape character; SQLite ignores the case of ASCII letters in `LIKE` but not in `=`. A `Collation`
is any such comparison that tells apart the texts that aliases and table names are made of.

Results:
* `Collation.of`: the comparisons by a folding of the characters.
* `Collation.generalCi`, `Collation.binary`, `Collation.sqliteBinary`: the usual ones.
-/

namespace GradidoConnector

open GradidoConnector.Base

/-- A character of `[a-z0-9-]`, as in the aliases of groups. -/
def isAliasChar (c : Char) : Bool := ('a' ≤ c && c ≤ 'z') || ('0' ≤ c && c ≤ '9') || c == '-'

/-- One of these or `_`, as in the names of tables. -/
def isWordChar (c : Char) : Bool := isAliasChar c || c == '_'

/-- All characters are in `[a-z0-9-]`. -/
def PlainText (s : String) : Prop := ∀ c ∈ s.toList, isAliasChar c = true

/-- All characters are in `[a-z0-9_-]`. -/
def Word (s : String) : Prop := ∀ c ∈ s.toList, isWordChar c = true

instance (s : String) : Decidable (PlainText s) :=
  @List.decidableBAll _ (fun c => isAliasChar c = true) (fun _ => inferInstance) s.toList

instance (s : String) : Decidable (Word s) :=
  @List.decidableBAll _ (fun c => isWordChar c = true) (fun _ => inferInstance) s.toList

theorem PlainText.word {s : String} (h : PlainText s) : Word s := fun c hc => by
  rw [isWordChar, h c hc, Bool.true_or]

/-- The comparison of the texts in a column. -/
structure Collation where
  /-- `text LIKE pat`, the pattern first. -/
  like : String → String → Bool
  /-- `a = b`, which is also when a unique key takes two rows for one. -/
  same : String → String → Bool
  same_equivalence : Equivalence fun s t => same s t = true
  /-- A plain text has no wildcard and no other plain spelling. -/
  like_plain : ∀ {pat text}, PlainText pat → PlainText text → like pat text = true → text = pat
  same_word : ∀ {s t}, Word s → Word t → same s t = true → s = t

namespace Collation

/-- `=` compares exactly. -/
def Exact (q : Collation) : Prop := ∀ s t, q.same s t = true → s = t

section Same

variable (q : Collation) {s t u : String}

@[simp] theorem same_refl (s : String) : q.same s s = true := q.same_equivalence.refl s

variable {q}

theorem same_symm (h : q.same s t = true) : q.same t s = true := q.same_equivalence.symm h

theorem same_trans (h : q.same s t = true) (h' : q.same t u = true) : q.same s u = true :=
  q.same_equivalence.trans h h'

theorem same_comm (s t : String) : q.same s t = q.same t s :=
  Bool.eq_iff_iff.mpr ⟨same_symm, same_symm⟩

/-- Texts that are the same are so to the same texts. -/
theorem same_congr (h : q.same s t = true) (u : String) : q.same s u = q.same t u :=
  Bool.eq_iff_iff.mpr ⟨fun hu => same_trans (same_symm h) hu, fun hu => same_trans h hu⟩

end Same

/-! ## The usual collations -/

/-- The character is its own folding, if it is in `[a-z0-9_-]`. -/
def KeepsWords (fold : Char → Char) : Prop := ∀ c, isWordChar c = true → fold c = c

theorem KeepsWords.map_eq {fold : Char → Char} (h : KeepsWords fold) {s : String} (hs : Word s) :
    s.toList.map fold = s.toList := by
  rw [List.map_congr_left fun c hc => h c (hs c hc), List.map_id']

theorem keepsWords_id : KeepsWords id := fun _ _ => rfl

/-- Only capital letters have a lower case. -/
theorem keepsWords_toLower : KeepsWords Char.toLower := by
  intro c hc
  unfold Char.toLower
  rw [dif_neg]
  rintro ⟨hlow, hhigh⟩
  simp only [isWordChar, isAliasChar, Bool.or_eq_true, Bool.and_eq_true, decide_eq_true_eq,
    beq_iff_eq] at hc
  rcases hc with ((⟨ha, -⟩ | ⟨-, hnine⟩) | rfl) | rfl
  · exact absurd (UInt32.le_trans ha hhigh) (by decide)
  · exact absurd (UInt32.le_trans hlow hnine) (by decide)
  · exact absurd hlow (by decide)
  · exact absurd hhigh (by decide)

/-- The backslash or no character escapes. -/
theorem literal_of_aliasChar {escape : Option Char} (h : escape = none ∨ escape = some '\\') {c : Char}
    (hc : isAliasChar c = true) : Literal escape c := by
  have hne : ∀ d, isAliasChar d = false → c ≠ d := by
    rintro d hd rfl
    rw [hd] at hc
    cases hc
  refine ⟨hne '%' (by decide), hne '_' (by decide), ?_⟩
  rcases h with rfl | rfl
  · exact Option.some_ne_none c
  · exact fun heq => hne '\\' (by decide) (Option.some.inj heq)

/-- A `LIKE` with an escape character, where the characters are compared after `foldLike`, and an
`=` where they are after `foldSame`. -/
def of (escape : Option Char) (foldLike foldSame : Char → Char)
    (hescape : escape = none ∨ escape = some '\\') (hlike : KeepsWords foldLike)
    (hsame : KeepsWords foldSame) : Collation where
  like := Base.like escape foldLike
  same s t := s.toList.map foldSame == t.toList.map foldSame
  same_equivalence := by
    simp only [beq_iff_eq]
    exact ⟨fun _ => rfl, fun h => h.symm, fun h h' => h.trans h'⟩
  like_plain hpat htext h := by
    rw [like_iff_map_eq fun c hc => literal_of_aliasChar hescape (hpat c hc),
      hlike.map_eq htext.word, hlike.map_eq hpat.word] at h
    exact String.toList_inj.mp h
  same_word hs ht h := by
    rw [beq_iff_eq, hsame.map_eq hs, hsame.map_eq ht] at h
    exact String.toList_inj.mp h

/-- MySQL's default for `utf8mb4`, of which the letters of ASCII are told here. -/
def generalCi : Collation :=
  of (some '\\') Char.toLower Char.toLower (Or.inr rfl) keepsWords_toLower keepsWords_toLower

/-- `utf8mb4_bin` -/
def binary : Collation := of (some '\\') id id (Or.inr rfl) keepsWords_id keepsWords_id

/-- SQLite's `BINARY`, with its `LIKE`. -/
def sqliteBinary : Collation := of none Char.toLower id (Or.inl rfl) keepsWords_toLower keepsWords_id

theorem exact_binary : binary.Exact := by
  intro s t h
  rw [binary, of, beq_iff_eq, List.map_id, List.map_id] at h
  exact String.toList_inj.mp h

end Collation

end GradidoConnector
