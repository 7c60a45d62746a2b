import ContractMigration.Proofs.Solidity.Masking
import Mathlib.Data.List.Forall2

/-!
# Masking in one pass

A reader that goes through a source once and remembers no more than the context it is in: code, a line comment, a
block comment or a string. The context, the character and one look at the character behind it settle what is shown and
which context comes next, so the reader is an automaton over characters. Masking is what it shows when it begins in
code (`mask_onePass`).

The contexts also tell how far one line of a source reaches into the next. A line end leads back to code from every
context but a block comment and an escape, so a source is masked line by line exactly where no string is carried over
by a backslash in front of the line end (`mask_lines_iff`).
-/

namespace ContractMigration.Solidity

open Lexeme

/-- What a character of a source belongs to. The delimiters of a block comment and the escapes of a string are two
characters long; between the two stands a context of its own. -/
inductive Context where
  | code
  | lineComment
  | blockComment
  | string (quote : Char)
  /-- In front of the star that opens a block comment. -/
  | opening
  /-- In front of the slash that closes a block comment. -/
  | closing
  /-- In front of a character that a backslash makes content of a string. -/
  | escaped (quote : Char)
deriving DecidableEq, Repr

namespace Context

/-- The context behind a character, with a look at the character that follows. -/
def step (c : Char) (next : Option Char) : Context → Context
  | code =>
    if c = '/' ∧ next = some '/' then lineComment
    else if c = '/' ∧ next = some '*' then opening
    else if c = '"' ∨ c = '\'' then string c
    else code
  | lineComment => if c = '\n' then code else lineComment
  | opening => blockComment
  | blockComment => if c = '*' ∧ next = some '/' then closing else blockComment
  | closing => code
  | string quote =>
    if c = '\\' then escaped quote
    else if c = quote ∨ c = '\n' then code
    else string quote
  | escaped quote => string quote

/-- What is shown in place of a character: code and the quotes of a string are kept, the rest is blanked. -/
def emit (c : Char) (next : Option Char) : Context → Char
  | code => if c = '/' ∧ (next = some '/' ∨ next = some '*') then blankOut c else c
  | string quote => if c = quote then c else blankOut c
  | _ => blankOut c

/-- What is shown of a text that begins in a context. -/
def run (context : Context) : List Char → List Char
  | [] => []
  | c :: rest => context.emit c rest.head? :: (context.step c rest.head?).run rest

/-- The context behind a text that begins in a context. -/
def after (context : Context) : List Char → Context
  | [] => context
  | c :: rest => (context.step c rest.head?).after rest

@[simp] theorem run_nil (context : Context) : context.run [] = [] := rfl

theorem run_cons (context : Context) (c : Char) (rest : List Char) :
    context.run (c :: rest) = context.emit c rest.head? :: (context.step c rest.head?).run rest := rfl

theorem after_cons (context : Context) (c : Char) (rest : List Char) :
    context.after (c :: rest) = (context.step c rest.head?).after rest := rfl

/-! ### The automaton shows the masked text -/

theorem run_lineComment (text : List Char) :
    lineComment.run text = (text.takeWhile (· != '\n')).map blankOut ++ code.run (text.dropWhile (· != '\n')) := by
  induction text with
  | nil => rfl
  | cons c rest ih =>
    by_cases hc : c = '\n'
    · subst hc
      rfl
    · have hkept : (c != '\n') = true := by simpa using hc
      simp only [run_cons, step, emit, if_neg hc, ih, List.takeWhile_cons, List.dropWhile_cons, hkept, if_true,
        List.map_cons, List.cons_append]

theorem run_blockComment (behind text : List Char) :
    behind.reverse.map blankOut ++ blockComment.run text =
      (splitBlockEnd behind text).1.map blankOut ++ code.run (splitBlockEnd behind text).2 := by
  fun_induction splitBlockEnd behind text with
  | case1 behind => rfl
  | case2 behind rest => simp [run_cons, step, emit]
  | case3 behind c rest hopen ih =>
    have hstep : step c rest.head? blockComment = blockComment := by
      refine if_neg fun h => ?_
      obtain ⟨tail, htail⟩ := List.head?_eq_some_iff.1 h.2
      exact hopen tail h.1 htail
    rw [← ih, run_cons, hstep]
    simp [emit]

theorem run_string {quote : Char} (hquote : quote = '"' ∨ quote = '\'') (behind text : List Char) :
    behind.reverse.map blankOut ++ (string quote).run text =
      (splitLiteral quote behind text).1.map blankOut ++
        (if (splitLiteral quote behind text).2.1 then [quote] else []) ++
        code.run (splitLiteral quote behind text).2.2 := by
  have hne : quote ≠ '\\' := by
    rintro rfl
    exact absurd hquote (by decide)
  have hline : quote ≠ '\n' := by
    rintro rfl
    exact absurd hquote (by decide)
  fun_induction splitLiteral quote behind text with
  | case1 behind => simp
  | case2 behind => simp [run_cons, emit, Ne.symm hne]
  | case3 behind c rest ih =>
    rw [← ih]
    simp [run_cons, step, emit, Ne.symm hne]
  | case4 behind c rest hone hescape hclose =>
    obtain rfl : c = quote := by simpa using hclose
    simp [run_cons, step, emit, hne]
  | case5 behind c rest hone hescape hclose hend =>
    obtain rfl : c = '\n' := by simpa using hend
    simp [run_cons, step, emit, blankOut]
  | case6 behind c rest hone hescape hclose hend ih =>
    have hbackslash : c ≠ '\\' := by
      rintro rfl
      cases rest with
      | nil => exact hone rfl rfl
      | cons d rest => exact hescape d rest rfl rfl
    rw [beq_iff_eq] at hclose hend
    rw [← ih, run_cons, emit, if_neg hclose, step, if_neg hbackslash, if_neg (not_or.2 ⟨hclose, hend⟩)]
    simp

/-- A lexeme is shown as it is masked, and behind it the context is code again. -/
theorem run_code_cons (c : Char) (rest : List Char) :
    code.run (c :: rest) = (read c rest).1.masked ++ code.run (read c rest).2 := by
  by_cases hquote : c = '"' ∨ c = '\''
  · have hslash : c ≠ '/' := by
      rintro rfl
      exact absurd hquote (by decide)
    have hstring := run_string hquote [] rest
    rw [List.reverse_nil, List.map_nil, List.nil_append] at hstring
    simp only [read_literal hquote, masked, run_cons, step, emit, hslash, hquote, false_and, if_false, if_true, hstring,
      List.cons_append]
  · rw [not_or] at hquote
    by_cases hslash : c = '/'
    · subst hslash
      cases rest with
      | nil => rfl
      | cons d rest =>
        by_cases hline : d = '/'
        · subst hline
          have hopen : code.run ('/' :: '/' :: rest) = blankOut '/' :: blankOut '/' :: lineComment.run rest := rfl
          rw [hopen, run_lineComment, read_lineComment, masked, List.map_cons, List.map_cons]
          rfl
        · by_cases hblock : d = '*'
          · subst hblock
            have hopen : code.run ('/' :: '*' :: rest) = blankOut '/' :: blankOut '*' :: blockComment.run rest := rfl
            have hinside := run_blockComment [] rest
            rw [List.reverse_nil, List.map_nil, List.nil_append] at hinside
            rw [hopen, hinside, read_blockComment, masked, List.map_cons, List.map_cons]
            rfl
          · rw [read_slash_code hline hblock, run_cons]
            simp [step, emit, masked, hline, hblock]
    · rw [read_code hslash hquote.1 hquote.2, run_cons]
      simp [step, emit, masked, hslash, hquote]

end Context

/-- Masking is what the automaton shows from code on. -/
theorem mask_eq_run (source : List Char) : mask source = Context.code.run source := by
  match source with
  | [] => rfl
  | c :: rest =>
    have hread := Lexeme.length_read_le c rest
    rw [mask_cons, Context.run_code_cons, mask_eq_run]
termination_by source.length

namespace Context

theorem emit_eq_or (context : Context) (c : Char) (next : Option Char) :
    context.emit c next = c ∨ context.emit c next = blankOut c := by
  unfold emit
  split
  · exact (ite_eq_or_eq _ _ _).symm
  · exact ite_eq_or_eq _ _ _
  · exact .inr rfl

/-- A character is kept or becomes a space, and a line end is shown exactly for a line end. -/
theorem forall₂_run (context : Context) (text : List Char) :
    List.Forall₂ (fun shown c => (shown = c ∨ shown = ' ') ∧ (shown = '\n' ↔ c = '\n')) (context.run text) text := by
  induction text generalizing context with
  | nil => exact .nil
  | cons c rest ih =>
    refine .cons ?_ (ih _)
    rcases emit_eq_or context c rest.head? with h | h
    · rw [h]
      exact ⟨.inl rfl, .rfl⟩
    · rw [h]
      by_cases hline : c = '\n'
      · simp [hline, blankOut]
      · simp [hline, blankOut_of_ne hline]

end Context

/-- A source is masked in one pass over its characters. Every place keeps its character or shows a space, and the line
ends are those of the source. -/
theorem mask_onePass (source : List Char) :
    mask source = Context.code.run source ∧
    (mask source).length = source.length ∧
    List.Forall₂ (fun shown c => (shown = c ∨ shown = ' ') ∧ (shown = '\n' ↔ c = '\n')) (mask source) source := by
  refine ⟨mask_eq_run source, length_mask source, ?_⟩
  rw [mask_eq_run]
  exact Context.forall₂_run .code source

/-! ### Line by line -/

namespace Context

/-- Outside block comments, where the next line end that no backslash precedes leads back to code. -/
def OffBlock : Context → Prop
  | code | lineComment => True
  | string quote | escaped quote => quote = '"' ∨ quote = '\''
  | blockComment | opening | closing => False

theorem offBlock_step {context : Context} (h : context.OffBlock) {c : Char} {next : Option Char}
    (hopen : ¬ (c = '/' ∧ next = some '*')) : (context.step c next).OffBlock := by
  cases context with
  | code =>
    by_cases hline : c = '/' ∧ next = some '/'
    · rw [step, if_pos hline]
      trivial
    · rw [step, if_neg hline, if_neg hopen]
      split
      · next hquote => exact hquote
      · trivial
  | lineComment => rw [step]; split <;> trivial
  | string quote =>
    rw [step]
    split
    · exact h
    · split
      · trivial
      · exact h
  | escaped quote => exact h
  | blockComment => exact h.elim
  | opening => exact h.elim
  | closing => exact h.elim

/-- A text without `/*` never enters a block comment. -/
theorem offBlock_after {context : Context} (hcontext : context.OffBlock) {text : List Char}
    (htext : ¬ ['/', '*'] <:+: text) : (context.after text).OffBlock := by
  induction text generalizing context with
  | nil => exact hcontext
  | cons c rest ih =>
    have hrest : ¬ ['/', '*'] <:+: rest := fun h => htext (h.trans (List.suffix_cons c rest).isInfix)
    refine ih (offBlock_step hcontext ?_) hrest
    rintro ⟨rfl, hstar⟩
    obtain ⟨tail, rfl⟩ := List.head?_eq_some_iff.1 hstar
    exact htext ⟨[], tail, rfl⟩

/-- Only a slash or a star changes what the character in front of it means. -/
theorem run_append {d : Char} (hslash : d ≠ '/') (hstar : d ≠ '*') (context : Context) (text more : List Char) :
    context.run (text ++ d :: more) = context.run text ++ (context.after text).run (d :: more) := by
  have hstep : ∀ (context : Context) (c : Char), context.step c (some d) = context.step c none := by
    intro context c
    cases context <;> simp [step, hslash, hstar]
  have hemit : ∀ (context : Context) (c : Char), context.emit c (some d) = context.emit c none := by
    intro context c
    cases context <;> simp [emit, hslash, hstar]
  induction text generalizing context with
  | nil => rfl
  | cons c rest ih =>
    rw [List.cons_append, run_cons, run_cons, after_cons, ih]
    cases rest with
    | nil => rw [List.nil_append, List.head?_cons, List.head?_nil, hstep, hemit, List.cons_append]
    | cons => rfl

/-- A line end leads back to code, outside block comments and if no backslash stands in front of it. -/
theorem run_lineEnd {context : Context} (h : context.OffBlock) (hescape : ∀ quote, context ≠ escaped quote)
    (more : List Char) : context.run ('\n' :: more) = '\n' :: code.run more := by
  cases context with
  | code => rfl
  | lineComment => rfl
  | string quote =>
    have hline : '\n' ≠ quote := by
      rintro rfl
      exact absurd h (by simp [OffBlock])
    rw [run_cons, emit, if_neg hline, step, if_neg (by decide), if_pos (.inr rfl)]
    rfl
  | escaped quote => exact absurd rfl (hescape quote)
  | blockComment => exact h.elim
  | opening => exact h.elim
  | closing => exact h.elim

end Context

theorem mask_quote_cons {quote : Char} (h : quote = '"' ∨ quote = '\'') (text : List Char) :
    mask (quote :: text) = quote :: (Context.string quote).run text := by
  have hslash : quote ≠ '/' := by
    rintro rfl
    exact absurd h (by decide)
  simp only [mask_eq_run, Context.run_cons, Context.emit, Context.step, hslash, h, false_and, if_false, if_true]

/-- Behind a text without `/*` and a line end masking begins anew, unless the text ends inside a string with a backslash
that escapes the line end. Then the string goes on, and what follows must be masked alike inside and outside. -/
theorem mask_lines_iff {front : List Char} (hfront : ¬ ['/', '*'] <:+: front) (back : List Char) :
    mask (front ++ '\n' :: back) = mask front ++ '\n' :: mask back ↔
      ∀ quote, Context.code.after front = .escaped quote → mask (quote :: back) = quote :: mask back := by
  have hcode : Context.code.OffBlock := trivial
  have hcontext := Context.offBlock_after hcode hfront
  rw [mask_eq_run (front ++ _), Context.run_append (by decide) (by decide), ← mask_eq_run, List.append_cancel_left_eq]
  by_cases hescape : ∃ quote, Context.code.after front = .escaped quote
  · obtain ⟨quote, hquote⟩ := hescape
    rw [hquote] at hcontext ⊢
    have hcarried : (Context.escaped quote).run ('\n' :: back) = '\n' :: (Context.string quote).run back := rfl
    rw [hcarried, List.cons_inj_right]
    constructor
    · rintro hback _ ⟨⟩
      rw [mask_quote_cons hcontext, hback]
    · intro h
      have hback := h quote rfl
      rwa [mask_quote_cons hcontext, List.cons_inj_right] at hback
  · rw [not_exists] at hescape
    rw [Context.run_lineEnd hcontext hescape, mask_eq_run back]
    exact iff_of_true rfl fun quote hquote => absurd hquote (hescape quote)

/-- A string that is left open ends with its line, escapes in it or not. -/
theorem mask_lines_unclosed :
    let front := "s = \"o\\\"ops".toList
    let back := "contract A;".toList
    ¬ ['/', '*'] <:+: front ∧ mask (front ++ '\n' :: back) = mask front ++ '\n' :: mask back := by
  intro front back
  have hfront : ¬ ['/', '*'] <:+: front := by decide +kernel
  have hopen : Context.code.after front = .string '"' := by decide +kernel
  refine ⟨hfront, (mask_lines_iff hfront back).2 fun quote hquote => ?_⟩
  rw [hopen] at hquote
  exact absurd hquote (by simp)

/-- A backslash at the end of a line carries an open string over to the next line, where it hides a declaration. -/
theorem mask_lines_escaped :
    let front := "\"\\".toList
    let back := "contract Vault \x7b\x7d".toList
    ¬ ['/', '*'] <:+: front ∧ mask (front ++ '\n' :: back) = "\" \n                 ".toList ∧
      mask (front ++ '\n' :: back) ≠ mask front ++ '\n' :: mask back := by
  decide +kernel

end ContractMigration.Solidity
