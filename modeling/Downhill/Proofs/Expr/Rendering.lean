/-
The text of an expression determines it.

Every sum and product stands in parentheses, so where its left operand ends can be told from the
text alone: an operand is followed by a space or a parenthesis, and no name and no number has
either in it.  Read from the left, then, two expressions with the same text agree operand by
operand (`separates`), whatever stands behind them.  This is so however constants are written, as
long as the text of a constant determines the constant and is no name.

That the texts of floats are of this kind is shown with the formatter.  So variables have to have
names that look like names, and nothing else is assumed (`render_injective`).
-/
import Downhill.Expr.Render
import Downhill.Proofs.Decimal.Text
import Downhill.Proofs.Expr.Variables

namespace Downhill

/-! ### Words -/

/-- What may follow a word: spaces and parentheses. -/
def IsMark (c : Char) : Prop := c = ' ' ∨ c = '(' ∨ c = ')'

/-- A text without spaces and parentheses. -/
structure IsWord (text : List Char) : Prop where
  nonempty : text ≠ []
  unmarked : ∀ c ∈ text, ¬ IsMark c

/-- Nothing, or something that a word cannot go on with. -/
def Follows (rest : List Char) : Prop := ∀ c ∈ rest.head?, IsMark c

theorem follows_nil : Follows [] := nofun

theorem follows_cons {c : Char} (h : IsMark c) (rest : List Char) : Follows (c :: rest) := by
  intro c' head
  cases head
  exact h

section

variable {word word' rest rest' : List Char}

theorem IsWord.eq_nil_of_follows (h : IsWord (word ++ word')) (follows : Follows (word' ++ rest)) :
    word' = [] := by
  cases word' with
  | nil => rfl
  | cons c tail =>
      exact absurd (follows c rfl) (h.unmarked c (List.mem_append_right _ List.mem_cons_self))

/-- **Where a word ends can be told.** -/
theorem IsWord.append_inj (h : IsWord word) (h' : IsWord word') (follows : Follows rest)
    (follows' : Follows rest') (same : word ++ rest = word' ++ rest') :
    word = word' ∧ rest = rest' := by
  rcases List.append_eq_append_iff.mp same with ⟨more, rfl, rfl⟩ | ⟨more, rfl, rfl⟩
  · obtain rfl := h'.eq_nil_of_follows follows
    exact ⟨(List.append_nil _).symm, rfl⟩
  · obtain rfl := h.eq_nil_of_follows follows'
    exact ⟨List.append_nil _, rfl⟩

/-- No word begins like a sum or a product. -/
theorem IsWord.append_ne (h : IsWord word) : word ++ rest ≠ '(' :: rest' := by
  intro same
  obtain ⟨c, tail, rfl⟩ := List.exists_cons_of_ne_nil h.nonempty
  cases same
  exact h.unmarked '(' List.mem_cons_self (.inr (.inl rfl))

end

namespace Expr

variable {α : Type}

/-! ### Expressions -/

/-- The text of an expression, as characters. -/
def text (constant : α → String) (e : Expr α) : List Char := (e.renderWith constant).toList

/-- The text of a sum or a product, with what follows it. -/
def binary (operator : Char) (left right rest : List Char) : List Char :=
  '(' :: (left ++ ' ' :: operator :: ' ' :: (right ++ ')' :: rest))

section

variable {constant : α → String} {e l r : Expr α} {rest : List Char}

theorem text_sum_append :
    (sum l r).text constant ++ rest = binary '+' (l.text constant) (r.text constant) rest := by
  simp [text, renderWith, binary, String.toList_append]

theorem text_product_append :
    (product l r).text constant ++ rest =
      binary '*' (l.text constant) (r.text constant) rest := by
  simp [text, renderWith, binary, String.toList_append]

end

/-- Two expressions whose texts can be told apart, whatever follows them. -/
def Separates (constant : α → String) (e e' : Expr α) : Prop :=
  ∀ {rest rest' : List Char}, Follows rest → Follows rest' →
    e.text constant ++ rest = e'.text constant ++ rest' → e = e' ∧ rest = rest'

/-- **The operator and the operands can be told from the text**, if the operands can. -/
theorem binary_inj {constant : α → String} {l r l' r' : Expr α} {operator operator' : Char}
    {rest rest' : List Char} (left : Separates constant l l') (right : Separates constant r r')
    (same : binary operator (l.text constant) (r.text constant) rest =
      binary operator' (l'.text constant) (r'.text constant) rest') :
    operator = operator' ∧ l = l' ∧ r = r' ∧ rest = rest' := by
  have space := follows_cons (.inl rfl : IsMark ' ')
  have parenthesis := follows_cons (.inr (.inr rfl) : IsMark ')')
  obtain ⟨l_eq, after⟩ := left (space _) (space _) (List.tail_eq_of_cons_eq same)
  injection after with _ after
  injection after with operator_eq after
  obtain ⟨r_eq, end_eq⟩ := right (parenthesis _) (parenthesis _) (List.tail_eq_of_cons_eq after)
  exact ⟨operator_eq, l_eq, r_eq, List.tail_eq_of_cons_eq end_eq⟩

/-- The names of the variables are words, and no texts of constants. -/
def Named (constant : α → String) (e : Expr α) : Prop :=
  ∀ name ∈ e.occurrences, IsWord name.toList ∧ ∀ c, constant c ≠ name

section

variable {constant : α → String} {l r : Expr α}

theorem Named.of_sum (h : Named constant (sum l r)) : Named constant l ∧ Named constant r :=
  ⟨fun name mem => h name (List.mem_append_left _ mem),
    fun name mem => h name (List.mem_append_right _ mem)⟩

theorem Named.of_product (h : Named constant (product l r)) :
    Named constant l ∧ Named constant r :=
  ⟨fun name mem => h name (List.mem_append_left _ mem),
    fun name mem => h name (List.mem_append_right _ mem)⟩

theorem Named.of_var {name : String} (h : Named constant (var name)) :
    IsWord name.toList ∧ ∀ c, constant c ≠ name :=
  h name List.mem_cons_self

end

section

variable {constant : α → String} (injective : Function.Injective constant)
  (words : ∀ c, IsWord (constant c).toList)
include injective words

/-- **Expressions can be told from their texts.**  A constant or a variable is a word, and a sum or
a product begins like no word. -/
theorem separates {e e' : Expr α} (named : Named constant e) (named' : Named constant e') :
    Separates constant e e' := by
  induction e generalizing e' with
  | const c =>
      cases e' with
      | const c' =>
          intro _ _ follows follows' same
          obtain ⟨text_eq, rest_eq⟩ := (words c).append_inj (words c') follows follows' same
          exact ⟨congrArg const (injective (String.toList_inj.mp text_eq)), rest_eq⟩
      | var name =>
          intro _ _ follows follows' same
          obtain ⟨text_eq, -⟩ := (words c).append_inj named'.of_var.1 follows follows' same
          exact absurd (String.toList_inj.mp text_eq) (named'.of_var.2 c)
      | sum => exact fun _ _ same => absurd (same.trans text_sum_append) (words c).append_ne
      | product => exact fun _ _ same => absurd (same.trans text_product_append) (words c).append_ne
  | var name =>
      cases e' with
      | const c =>
          intro _ _ follows follows' same
          obtain ⟨text_eq, -⟩ := named.of_var.1.append_inj (words c) follows follows' same
          exact absurd (String.toList_inj.mp text_eq.symm) (named.of_var.2 c)
      | var name' =>
          intro _ _ follows follows' same
          obtain ⟨text_eq, rest_eq⟩ :=
            named.of_var.1.append_inj named'.of_var.1 follows follows' same
          exact ⟨congrArg var (String.toList_inj.mp text_eq), rest_eq⟩
      | sum => exact fun _ _ same => absurd (same.trans text_sum_append) named.of_var.1.append_ne
      | product =>
          exact fun _ _ same => absurd (same.trans text_product_append) named.of_var.1.append_ne
  | sum l r ihl ihr =>
      cases e' with
      | const c =>
          exact fun _ _ same => absurd (same.symm.trans text_sum_append) (words c).append_ne
      | var name =>
          exact fun _ _ same => absurd (same.symm.trans text_sum_append) named'.of_var.1.append_ne
      | sum l' r' =>
          intro _ _ _ _ same
          rw [text_sum_append, text_sum_append] at same
          obtain ⟨-, rfl, rfl, rest_eq⟩ := binary_inj (ihl named.of_sum.1 named'.of_sum.1)
            (ihr named.of_sum.2 named'.of_sum.2) same
          exact ⟨rfl, rest_eq⟩
      | product l' r' =>
          intro _ _ _ _ same
          rw [text_sum_append, text_product_append] at same
          obtain ⟨clash, -⟩ := binary_inj (ihl named.of_sum.1 named'.of_product.1)
            (ihr named.of_sum.2 named'.of_product.2) same
          cases clash
  | product l r ihl ihr =>
      cases e' with
      | const c =>
          exact fun _ _ same => absurd (same.symm.trans text_product_append) (words c).append_ne
      | var name =>
          exact fun _ _ same =>
            absurd (same.symm.trans text_product_append) named'.of_var.1.append_ne
      | sum l' r' =>
          intro _ _ _ _ same
          rw [text_product_append, text_sum_append] at same
          obtain ⟨clash, -⟩ := binary_inj (ihl named.of_product.1 named'.of_sum.1)
            (ihr named.of_product.2 named'.of_sum.2) same
          cases clash
      | product l' r' =>
          intro _ _ _ _ same
          rw [text_product_append, text_product_append] at same
          obtain ⟨-, rfl, rfl, rest_eq⟩ := binary_inj (ihl named.of_product.1 named'.of_product.1)
            (ihr named.of_product.2 named'.of_product.2) same
          exact ⟨rfl, rest_eq⟩

/-- **The text of an expression determines it**, if the texts of constants determine them and are
no names. -/
theorem eq_of_renderWith_eq {e e' : Expr α} (named : Named constant e)
    (named' : Named constant e') (same : e.renderWith constant = e'.renderWith constant) :
    e = e' := by
  have texts : e.text constant ++ [] = e'.text constant ++ [] := by
    rw [text, text, same]
  exact (separates injective words named named' follows_nil follows_nil texts).1

end

/-! ### Floats -/

/-- Letters, digits and underscores, of which a digit is not the first.  All characters beyond
ASCII may stand where a letter may.  The words for numbers are none. -/
structure IsIdentifier (name : String) : Prop where
  nonempty : name.toList ≠ []
  only : ∀ c ∈ name.toList, c.isAlphanum = true ∨ c = '_' ∨ 127 < c.toNat
  first : ∀ c ∈ name.toList.head?, c.isDigit = false
  no_word : name ≠ "NaN" ∧ name ≠ "inf"

theorem IsIdentifier.isWord {name : String} (h : IsIdentifier name) : IsWord name.toList := by
  refine ⟨h.nonempty, ?_⟩
  rintro c mem (rfl | rfl | rfl)
  · exact absurd (h.only ' ' mem) (by decide)
  · exact absurd (h.only '(' mem) (by decide)
  · exact absurd (h.only ')' mem) (by decide)

theorem isWord_float (x : Float) : IsWord (Decimal.Style.plain.float x).toList := by
  refine ⟨?_, ?_⟩
  · rcases Decimal.float_first x with word | word | ⟨c, rest, text_eq, -⟩
    · rw [word]
      exact List.cons_ne_nil _ _
    · rw [word]
      exact List.cons_ne_nil _ _
    · rw [text_eq]
      exact List.cons_ne_nil c rest
  · rintro c mem (rfl | rfl | rfl)
    · exact absurd (Decimal.mem_float mem) (by decide)
    · exact absurd (Decimal.mem_float mem) (by decide)
    · exact absurd (Decimal.mem_float mem) (by decide)

theorem IsIdentifier.ne_float {name : String} (h : IsIdentifier name) (x : Float) :
    Decimal.Style.plain.float x ≠ name := by
  rintro rfl
  rcases Decimal.float_first x with word | word | ⟨c, rest, text_eq, minus | digit⟩
  · exact h.no_word.1 word
  · exact h.no_word.2 word
  · have only := h.only c (text_eq ▸ List.mem_cons_self)
    rw [minus] at only
    exact absurd only (by decide)
  · have first := h.first c (by rw [text_eq]; rfl)
    rw [digit] at first
    cases first

theorem named_of_identifiers {e : Expr Float}
    (names : ∀ name ∈ e.variableNames, IsIdentifier name) :
    Named Decimal.Style.plain.float e := by
  intro name mem
  have identifier := names name (mem_variableNames.mpr mem)
  exact ⟨identifier.isWord, identifier.ne_float⟩

/-- **Expressions with the same text are the same**: they have the same shape, the same names and
the same constants, bit for bit. -/
theorem render_injective (e e' : Expr Float)
    (names : ∀ name ∈ e.variableNames, IsIdentifier name)
    (names' : ∀ name ∈ e'.variableNames, IsIdentifier name) (same : e.render = e'.render) :
    e = e' :=
  eq_of_renderWith_eq Decimal.float_injective isWord_float (named_of_identifiers names)
    (named_of_identifiers names') same

/-- A constant with an exponent, a variable that is named like it, and a negative zero. -/
def lookalikes : Expr Float := sum (const 1e16) (product (var "e16") (const (-0.0)))

/-- The same, with the constants given by their patterns. -/
def lookalikesFromBits : Expr Float :=
  sum (const (Float.ofBits 0x4341c37937e08000))
    (product (var "e16") (const (Float.ofBits 0x8000000000000000)))

/-- From its text alone the expression is known. -/
theorem render_injective_lookalikes :
    lookalikes.render = "(1e16 + (e16 * -0.0))" ∧ lookalikesFromBits.render = lookalikes.render ∧
      lookalikesFromBits = lookalikes := by
  have letters : ['e', '1', '6'].all Char.isAlphanum = true := rfl
  have identifier : IsIdentifier "e16" :=
    { nonempty := by decide
      only := fun c mem => .inl (List.all_eq_true.mp letters c mem)
      first := fun c head => Option.some.inj head ▸ rfl
      no_word := by decide }
  have names : ∀ name ∈ ["e16"], IsIdentifier name := by
    rintro name (_ | ⟨_, ⟨⟩⟩)
    exact identifier
  have same : lookalikesFromBits.render = lookalikes.render := by decide +kernel
  exact ⟨by decide +kernel, same,
    render_injective lookalikesFromBits lookalikes names names same⟩

end Expr

end Downhill
