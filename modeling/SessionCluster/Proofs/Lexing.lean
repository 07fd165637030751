/-
  Lexing — a text that was written has the tokens from which it was written.

  The lexer is a fold, so it is enough to know what the characters of one token do to it.  Between
  tokens, every token but a number is finished with its own last character.  A number is not: it
  ends with whatever comes next, or with the text.  So a text is read back if every token in it has
  a written form that says all, and no number follows another at once (`Legible`).

  * `fold_escaped` — the characters of a string, by induction on the string;
  * `fold_sign` — the digits of a whole number;
  * `fold_token`, `fold_number` — one token;
  * `tokens_render` — a legible text is read back.
-/
import SessionCluster.Json.Lexer
import SessionCluster.Proofs.Digits

namespace SessionCluster

/-- Whether a number is a whole one. -/
def Number.IsWhole : Number → Prop
  | .natural _ => True
  | .negative _ => True
  | .double _ => False

namespace Json

/-! ## Legible texts -/

namespace Token

/-- Whether the written form of a token says all about it. -/
def Written : Token → Prop
  | .number (some n) => n.IsWhole
  | .number none => False
  | .string none => False
  | .broken => False
  | _ => True

def IsNumber : Token → Prop
  | .number _ => True
  | _ => False

end Token

/-- Tokens whose text is read back: each is written, and no number follows another. -/
def Legible : List Token → Prop
  | [] => True
  | t :: ts => t.Written ∧ (t.IsNumber → ∀ u ∈ ts.head?, ¬u.IsNumber) ∧ Legible ts

namespace Lexer

/-! ## Strings -/

theorem hexValue_hexDigit : ∀ n, n < 16 → Text.hexValue? (hexDigit n) = some n := by decide

/-- A control character is no surrogate. -/
theorem pushUnit_control {c : Char} (hc : c.toNat < 32) (cs : List Char) :
    (⟨cs, none, false⟩ : Partial).pushUnit c.toNat = ⟨c :: cs, none, false⟩ := by
  have htrailing : (0xDC00 ≤ c.toNat && c.toNat ≤ 0xDFFF : Bool) = false := by
    simp only [Bool.and_eq_false_iff, decide_eq_false_iff_not]
    omega
  have hleading : (0xD800 ≤ c.toNat && c.toNat ≤ 0xDBFF : Bool) = false := by
    simp only [Bool.and_eq_false_iff, decide_eq_false_iff_not]
    omega
  simp only [Partial.pushUnit, htrailing, hleading, Char.ofNat_toNat]
  rfl

/-- An escaped control character. -/
theorem fold_control {c : Char} (hc : c.toNat < 32) (ts : List Token) (cs : List Char) :
    ['\\', 'u', '0', '0', hexDigit (c.toNat / 16), hexDigit (c.toNat % 16)].foldl step
      ⟨ts, .inside ⟨cs, none, false⟩⟩ = ⟨ts, .inside ⟨c :: cs, none, false⟩⟩ := by
  have hhigh := hexValue_hexDigit (c.toNat / 16) (by omega)
  have hlow := hexValue_hexDigit (c.toNat % 16) (by omega)
  have hunit : c.toNat / 16 * 16 + c.toNat % 16 = c.toNat := by omega
  have hthird : step ⟨ts, .unit ⟨cs, none, false⟩ 2 0⟩ (hexDigit (c.toNat / 16)) =
      ⟨ts, .unit ⟨cs, none, false⟩ 1 (c.toNat / 16)⟩ := by
    simp only [step, hhigh]
    simp
  have hfourth : step ⟨ts, .unit ⟨cs, none, false⟩ 1 (c.toNat / 16)⟩ (hexDigit (c.toNat % 16)) =
      ⟨ts, .inside ⟨c :: cs, none, false⟩⟩ := by
    simp only [step, hlow, hunit, pushUnit_control hc]
    rfl
  show step (step ⟨ts, .unit ⟨cs, none, false⟩ 2 0⟩ (hexDigit (c.toNat / 16)))
    (hexDigit (c.toNat % 16)) = _
  rw [hthird, hfourth]

/-- A character of a string. -/
theorem fold_escapedChar (c : Char) (ts : List Token) (cs : List Char) :
    (escaped c).foldl step ⟨ts, .inside ⟨cs, none, false⟩⟩ =
      ⟨ts, .inside ⟨c :: cs, none, false⟩⟩ := by
  have hchar : ∀ n, c.toNat = n → c = Char.ofNat n := by
    rintro n rfl
    exact (Char.ofNat_toNat c).symm
  unfold escaped
  -- the characters that are escaped by two, in the order of the writer
  split
  · rename_i h
    subst h
    rfl
  split
  · rename_i h
    subst h
    rfl
  split
  · rename_i h
    subst h
    rfl
  split
  · rename_i h
    subst h
    rfl
  split
  · rename_i h
    subst h
    rfl
  -- backspace and form feed are known by their numbers only
  split
  · rename_i h
    rw [hchar 8 h]
    rfl
  split
  · rename_i h
    rw [hchar 12 h]
    rfl
  -- the other control characters are written as four digits
  split
  · rename_i h
    exact fold_control h ts cs
  · -- all other characters stand for themselves
    rename_i hquote hbackslash _ _ _ _ _ hcontrol
    simp only [List.foldl_cons, List.foldl_nil, step, if_neg hquote, if_neg hbackslash,
      if_neg hcontrol]
    rfl

/-- The characters of a string, one after the other. -/
theorem fold_escaped (s : List Char) (ts : List Token) :
    ∀ cs, (s.flatMap escaped).foldl step ⟨ts, .inside ⟨cs, none, false⟩⟩ =
      ⟨ts, .inside ⟨s.reverse ++ cs, none, false⟩⟩ := by
  induction s with
  | nil => exact fun cs => rfl
  | cons c s ih =>
    intro cs
    rw [List.flatMap_cons, List.foldl_append, fold_escapedChar, ih, List.reverse_cons,
      List.append_assoc]
    rfl

/-- A string in quotes is read back. -/
theorem fold_quoted (s : String) (ts : List Token) :
    (quoted s).foldl step ⟨ts, .between⟩ = ⟨.string (some s) :: ts, .between⟩ := by
  show (s.toList.flatMap escaped ++ ['"']).foldl step ⟨ts, .inside {}⟩ = _
  rw [List.foldl_append, fold_escaped]
  show (⟨.string (Partial.value? ⟨s.toList.reverse ++ [], none, false⟩) :: ts, .between⟩ : State) = _
  rw [List.append_nil]
  show (⟨.string (some (String.ofList s.toList.reverse.reverse)) :: ts, .between⟩ : State) = _
  rw [List.reverse_reverse, String.ofList_toList]

/-! ## Whole numbers -/

/-- The numeral of a whole number. -/
def numeralOf (negative : Bool) (k : Nat) : Numeral where
  negative := negative
  whole := (Text.digits k).reverse

/-- Where a whole number may end. -/
def Place.Complete (p : Place) : Prop := p = .zero ∨ p = .whole

/-- Digits are taken in one after another. -/
theorem fold_whole (ts : List Token) (cs : List Char) (h : ∀ c ∈ cs, Text.isDigit c = true) :
    ∀ n : Numeral, cs.foldl step ⟨ts, .numeral .whole n⟩ =
      ⟨ts, .numeral .whole { n with whole := cs.reverse ++ n.whole }⟩ := by
  induction cs with
  | nil => exact fun n => rfl
  | cons c cs ih =>
    intro n
    have hc : Text.isDigit c = true := h c (List.mem_cons_self ..)
    have hstep : step ⟨ts, .numeral .whole n⟩ c =
        ⟨ts, .numeral .whole { n with whole := c :: n.whole }⟩ := by
      simp only [step, numeralStep, hc]
      rfl
    rw [List.foldl_cons, hstep, ih fun d hd => h d (List.mem_cons_of_mem _ hd), List.reverse_cons,
      List.append_assoc]
    rfl

/-- The digits of a number, after a sign or where there is none. -/
theorem fold_sign (ts : List Token) (negative : Bool) (k : Nat) :
    ∃ p : Place, p.Complete ∧ (Text.digits k).foldl step ⟨ts, .numeral .sign { negative }⟩ =
      ⟨ts, .numeral p (numeralOf negative k)⟩ := by
  rcases Nat.eq_zero_or_pos k with rfl | hk
  · exact ⟨.zero, .inl rfl, rfl⟩
  · obtain ⟨c, cs, hdigits, hzero⟩ := Text.digits_head hk
    have hdigit : ∀ d ∈ c :: cs, Text.isDigit d = true := fun d hd =>
      Text.isDigit_of_mem_digits (n := k) (by rw [hdigits]; exact hd)
    have hfirst : step ⟨ts, .numeral .sign { negative }⟩ c =
        ⟨ts, .numeral .whole { negative, whole := [c] }⟩ := by
      simp only [step, numeralStep, if_neg hzero, hdigit c (List.mem_cons_self ..)]
      rfl
    refine ⟨.whole, .inr rfl, ?_⟩
    unfold numeralOf
    rw [hdigits, List.foldl_cons, hfirst,
      fold_whole ts cs fun d hd => hdigit d (List.mem_cons_of_mem _ hd), List.reverse_cons]

/-- A digit between tokens begins a number. -/
theorem begin_digit {c : Char} (h : Text.isDigit c = true) (ts : List Token) :
    step ⟨ts, .between⟩ c = step ⟨ts, .numeral .sign {}⟩ c := by
  have hsome : ∃ p n, numeralStep .sign {} c = some (p, n) := by
    unfold numeralStep
    by_cases hzero : c = '0'
    · exact ⟨_, _, if_pos hzero⟩
    · simp only [if_neg hzero, h]
      exact ⟨_, _, rfl⟩
  obtain ⟨p, n, hstep⟩ := hsome
  show begin ⟨ts, .between⟩ c = _
  simp only [step, hstep]
  unfold begin
  rw [if_neg (by rintro (rfl | rfl | rfl | rfl) <;> cases h)]
  split <;> try cases h
  rw [hstep]

/-- The digits of a number between tokens. -/
theorem fold_digits (ts : List Token) (k : Nat) :
    ∃ p : Place, p.Complete ∧ (Text.digits k).foldl step ⟨ts, .between⟩ =
      ⟨ts, .numeral p (numeralOf false k)⟩ := by
  obtain ⟨p, hp, hfold⟩ := fold_sign ts false k
  refine ⟨p, hp, ?_⟩
  rw [← hfold]
  cases hdigits : Text.digits k with
  | nil => exact absurd hdigits (Text.digits_ne_nil k)
  | cons c cs =>
    have hc : Text.isDigit c = true :=
      Text.isDigit_of_mem_digits (n := k) (by rw [hdigits]; exact List.mem_cons_self ..)
    rw [List.foldl_cons, List.foldl_cons, begin_digit hc]

/-- A natural number is read back from its digits. -/
theorem value_natural (n : UInt64) : (numeralOf false n.toNat).value? = some (.natural n) := by
  have hspelled : Text.ofDigits 0 (Text.digits n.toNat).reverse.reverse = n.toNat := by
    rw [List.reverse_reverse, Text.ofDigits_digits]
  have hint : Number.ofInt? (n.toNat : Int) = some (.natural n) := by
    show (if n.toNat < 18446744073709551616 then _ else _) = _
    rw [if_pos n.toNat_lt, UInt64.ofNat_toNat]
  simp only [Numeral.value?, numeralOf, hspelled, hint]
  rfl

/-- So is a negative one. -/
theorem value_negative (k : Fin 9223372036854775808) :
    (numeralOf true (k.val + 1)).value? = some (.negative k) := by
  have hspelled : Text.ofDigits 0 (Text.digits (k.val + 1)).reverse.reverse = k.val + 1 := by
    rw [List.reverse_reverse, Text.ofDigits_digits]
  have hint : Number.ofInt? (-((k.val + 1 : Nat) : Int)) = some (.negative k) := by
    show (if h : k.val < 9223372036854775808 then _ else _) = _
    rw [dif_pos k.isLt]
  simp only [Numeral.value?, numeralOf, hspelled, hint]
  rfl

/-- The text of a whole number is a numeral that may end, and stands for the number. -/
theorem fold_number {n : Number} (h : n.IsWhole) (ts : List Token) :
    ∃ (p : Place) (m : Numeral), p.Complete ∧ m.value? = some n ∧
      n.text.toList.foldl step ⟨ts, .between⟩ = ⟨ts, .numeral p m⟩ := by
  cases n with
  | natural n =>
    obtain ⟨p, hp, hfold⟩ := fold_digits ts n.toNat
    refine ⟨p, _, hp, value_natural n, ?_⟩
    show (Text.decimal n.toNat).toList.foldl step _ = _
    rw [Text.toList_decimal]
    exact hfold
  | negative k =>
    obtain ⟨p, hp, hfold⟩ := fold_sign ts true (k.val + 1)
    refine ⟨p, _, hp, value_negative k, ?_⟩
    show ("-" ++ Text.decimal (k.val + 1)).toList.foldl step _ = _
    rw [String.toList_append, List.foldl_append, Text.toList_decimal]
    exact hfold
  | double bits => exact h.elim

/-! ## Tokens -/

/-- A written token that is no number is finished with its last character. -/
theorem fold_token {t : Token} (h : t.Written) (hn : ¬t.IsNumber) (ts : List Token) :
    t.chars.foldl step ⟨ts, .between⟩ = ⟨t :: ts, .between⟩ := by
  cases t with
  | bool b => cases b <;> rfl
  | number n => exact absurd trivial hn
  | string s =>
    cases s with
    | none => exact h.elim
    | some s => exact fold_quoted s ts
  | broken => exact h.elim
  | _ => rfl

/-- A number ends before any other token. -/
theorem fold_after_number {p : Place} (hp : p.Complete) {m : Numeral} {t : Token}
    (h : t.Written) (hn : ¬t.IsNumber) (ts : List Token) :
    t.chars.foldl step ⟨ts, .numeral p m⟩ =
      t.chars.foldl step ⟨.number m.value? :: ts, .between⟩ := by
  -- a character that is no part of the number ends it, and begins what comes next
  have hends : ∀ c, numeralStep p m c = none → Text.isDigit c = false → ∀ cs,
      (c :: cs).foldl step ⟨ts, .numeral p m⟩ =
        (c :: cs).foldl step ⟨.number m.value? :: ts, .between⟩ := by
    intro c hnone hdigit cs
    have hmay : (p.mayEnd && !(p = .zero && Text.isDigit c)) = true := by
      rw [hdigit, Bool.and_false]
      rcases hp with rfl | rfl <;> rfl
    have hstep : step ⟨ts, .numeral p m⟩ c = step ⟨.number m.value? :: ts, .between⟩ c := by
      simp only [step, hnone]
      rw [if_pos hmay]
      rfl
    rw [List.foldl_cons, List.foldl_cons, hstep]
  -- all that may go on in a number are digits, a point and the letters of an exponent
  have hnone : ∀ c, Text.isDigit c = false → c ≠ '.' → c ≠ 'e' → c ≠ 'E' →
      numeralStep p m c = none := by
    intro c hdigit hpoint he hE
    rcases hp with rfl | rfl <;> simp [numeralStep, hdigit, hpoint, he, hE]
  -- no token but a number begins with one of these
  cases t with
  | bool b =>
    cases b <;> exact hends _ (hnone _ rfl (by decide) (by decide) (by decide)) rfl _
  | number n => exact absurd trivial hn
  | string s =>
    cases s with
    | none => exact h.elim
    | some s => exact hends _ (hnone _ rfl (by decide) (by decide) (by decide)) rfl _
  | broken => exact h.elim
  | _ => exact hends _ (hnone _ rfl (by decide) (by decide) (by decide)) rfl _

/-- A number ends before what follows it, and at the end of the text. -/
theorem finish_after_number {p : Place} (hp : p.Complete) {m : Numeral} {ts : List Token}
    (h : Legible ts) (hn : ∀ u ∈ ts.head?, ¬u.IsNumber) (done : List Token) :
    finish ((ts.flatMap Token.chars).foldl step ⟨done, .numeral p m⟩) =
      finish ((ts.flatMap Token.chars).foldl step ⟨.number m.value? :: done, .between⟩) := by
  cases ts with
  | nil => rcases hp with rfl | rfl <;> rfl
  | cons u us =>
    rw [List.flatMap_cons, List.foldl_append, List.foldl_append,
      fold_after_number hp h.1 (hn u rfl)]

/-- What is read from legible tokens, after others. -/
theorem finish_fold (ts : List Token) (h : Legible ts) :
    ∀ done, finish ((ts.flatMap Token.chars).foldl step ⟨done, .between⟩) = done.reverse ++ ts := by
  induction ts with
  | nil => exact fun done => (List.append_nil _).symm
  | cons t ts ih =>
    intro done
    obtain ⟨hwritten, hapart, hrest⟩ := h
    have hnext : finish ((ts.flatMap Token.chars).foldl step ⟨t :: done, .between⟩) =
        done.reverse ++ t :: ts := by
      rw [ih hrest, List.reverse_cons, List.append_assoc]
      rfl
    rw [List.flatMap_cons, List.foldl_append, ← hnext]
    by_cases hn : t.IsNumber
    · match t, hwritten with
      | .number (some n), hwhole =>
        obtain ⟨p, m, hp, hvalue, hfold⟩ := fold_number hwhole done
        have hchars : (Token.number (some n)).chars.foldl step ⟨done, .between⟩ =
          ⟨done, .numeral p m⟩ := hfold
        rw [hchars, finish_after_number hp hrest (hapart hn), hvalue]
    · rw [fold_token hwritten hn]

end Lexer

/-- **A legible text is read back.** -/
theorem tokens_render {ts : List Token} (h : Legible ts) : tokens (render ts) = ts := by
  unfold tokens render
  rw [String.toList_ofList]
  exact Lexer.finish_fold ts h []

end Json

end SessionCluster
