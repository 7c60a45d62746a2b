import ContractMigration.Proofs.Solidity.Growth
import ContractMigration.Proofs.Text.Words

/-!
# Imports and the literals they name

Import statements are delimited in the masked text, but their paths are looked for in the source, between quotes of any
kind. In terms of lexemes a statement is what stands between two semicolons that are code, its clause is what follows
the word `import` in it, and the path that a clause names is the content of its first closed literal. The paths that are
read are the first quoted texts of the clauses (`importedPaths_eq`), and `importedPaths_literal_iff` says when they are
the paths that the clauses name: a comment in front of the literal may be quoted before it, and a literal may hold the
other quote.
-/

namespace ContractMigration.Solidity

open Text

namespace Lexeme

/-! ### What shows in a masked text -/

/-- What holds of every lexeme that is read: a comment is not empty, and a literal stands between quotes. -/
def WellFormed : Lexeme → Prop
  | code _ => True
  | comment text => text ≠ []
  | literal quote _ _ => isQuote quote = true

theorem wellFormed_read (c : Char) (rest : List Char) : (read c rest).1.WellFormed := by
  unfold read
  split
  · exact List.cons_ne_nil _ _
  · exact List.cons_ne_nil _ _
  · split
    · next hquote => exact hquote
    · trivial

theorem wellFormed_of_mem {lexeme : Lexeme} {text : List Char} (h : lexeme ∈ lexemes text) : lexeme.WellFormed := by
  match text with
  | [] => exact absurd h List.not_mem_nil
  | c :: rest =>
    have hread := length_read_le c rest
    rw [lexemes_cons, List.mem_cons] at h
    rcases h with rfl | h
    · exact wellFormed_read c rest
    · exact wellFormed_of_mem h
termination_by text.length

/-- Whether the lexeme is a character of a word. -/
def isWord : Lexeme → Bool
  | code c => isWordChar c
  | comment _ | literal _ _ _ => false

/-- The content of a literal that its quote closes. -/
def closedContent? : Lexeme → Option (List Char)
  | literal _ content true => some content
  | code _ | comment _ | literal _ _ false => none

theorem closedContent?_eq_some {lexeme : Lexeme} {content : List Char} (h : lexeme.closedContent? = some content) :
    ∃ quote, lexeme = literal quote content true := by
  unfold closedContent? at h
  split at h
  · exact ⟨_, by rw [Option.some.inj h]⟩
  all_goals exact absurd h (by simp)

/-- A comment or a literal: it shows something, but no word and no semicolon. -/
structure Hidden (lexeme : Lexeme) : Prop where
  ne_code : ∀ c, lexeme ≠ code c
  isWord : lexeme.isWord = false
  shows : ∃ d more, lexeme.masked = d :: more ∧ ∀ c ∈ d :: more, isWordChar c = false ∧ c ≠ ';'

theorem code_or_hidden {lexeme : Lexeme} (h : lexeme.WellFormed) : (∃ c, lexeme = code c) ∨ lexeme.Hidden := by
  have hblankOut (text : List Char) : ∀ c ∈ text.map blankOut, isWordChar c = false ∧ c ≠ ';' := by
    intro c hc
    obtain ⟨d, -, rfl⟩ := List.mem_map.1 hc
    unfold blankOut
    split <;> decide
  cases lexeme with
  | code c => exact .inl ⟨c, rfl⟩
  | comment text =>
    obtain ⟨d, more, rfl⟩ := List.exists_cons_of_ne_nil h
    exact .inr ⟨fun _ => by simp, rfl, _, _, rfl, hblankOut (d :: more)⟩
  | literal quote content closed =>
    have hquote : isWordChar quote = false ∧ quote ≠ ';' := by
      simp only [WellFormed, isQuote, Bool.or_eq_true, beq_iff_eq] at h
      rcases h with rfl | rfl <;> decide
    have hclose : ∀ c ∈ (if closed then [quote] else []), isWordChar c = false ∧ c ≠ ';' := fun c hc =>
      List.mem_singleton.1 (List.mem_ite_nil_right.1 hc).2 ▸ hquote
    exact .inr ⟨fun _ => by simp, rfl, _, _, rfl,
      List.forall_mem_cons.2 ⟨hquote, List.forall_mem_append.2 ⟨hblankOut content, hclose⟩⟩⟩

theorem length_flatMap_masked (pieces : List Lexeme) :
    (pieces.flatMap masked).length = (pieces.flatMap source).length := by
  induction pieces with
  | nil => rfl
  | cons lexeme pieces ih => simp only [List.flatMap_cons, List.length_append, length_masked, ih]

/-- A semicolon that shows is code. -/
theorem semicolon_mem_masked {pieces : List Lexeme} (h : ∀ lexeme ∈ pieces, lexeme.WellFormed)
    (hmem : ';' ∈ pieces.flatMap masked) : code ';' ∈ pieces := by
  obtain ⟨lexeme, hlexeme, hshown⟩ := List.mem_flatMap.1 hmem
  rcases code_or_hidden (h lexeme hlexeme) with ⟨c, rfl⟩ | hhidden
  · obtain rfl := List.mem_singleton.1 hshown
    exact hlexeme
  · obtain ⟨d, more, hmasked, hquiet⟩ := hhidden.shows
    exact absurd rfl (hquiet _ (hmasked ▸ hshown)).2

end Lexeme

/-! ### Clauses -/

/-- What follows the word `import`, where it begins a list of lexemes. -/
def afterImport? (pieces : List Lexeme) : Option (List Lexeme) :=
  (("import".toList.map Lexeme.code).isPrefixOf? pieces).filter fun rest => !rest.head?.any Lexeme.isWord

/-- What follows the first word `import`. When a character of a word stands in front, no word begins at the first
lexeme. -/
def clauseFrom (joined : Bool) : List Lexeme → Option (List Lexeme)
  | [] => none
  | lexeme :: rest =>
    match if joined then none else afterImport? (lexeme :: rest) with
    | some clause => some clause
    | none => clauseFrom lexeme.isWord rest

/-- The clauses of the import statements of a source, in order. -/
def importClauses (source : List Char) : List (List Lexeme) :=
  ((lexemes source).splitOnP (· == .code ';')).filterMap (clauseFrom false)

/-- The path that a clause names: the content of its first closed literal. -/
def firstLiteral? (clause : List Lexeme) : Option (List Char) :=
  clause.findSome? Lexeme.closedContent?

theorem suffix_of_afterImport? {pieces clause : List Lexeme} (h : afterImport? pieces = some clause) :
    clause <:+ pieces :=
  ⟨_, List.isPrefixOf?_eq_some_iff_append_eq.1 (Option.eq_some_of_filter_eq_some h)⟩

theorem clauseFrom_suffix {joined : Bool} {pieces clause : List Lexeme} (h : clauseFrom joined pieces = some clause) :
    clause <:+ pieces := by
  induction pieces generalizing joined with
  | nil => exact absurd h (by simp [clauseFrom])
  | cons lexeme rest ih =>
    rw [clauseFrom] at h
    split at h
    · next found hfound =>
      obtain rfl := Option.some.inj h
      split at hfound
      · exact absurd hfound (by simp)
      · exact suffix_of_afterImport? hfound
    · exact (ih h).trans (List.suffix_cons ..)

/-! ### The search for the word -/

theorem after?_flatMap_masked {word : List Char} (hword : ∀ c ∈ word, isWordChar c = true) {pieces : List Lexeme}
    (h : ∀ lexeme ∈ pieces, lexeme.WellFormed) :
    after? word (pieces.flatMap Lexeme.masked) =
      ((word.map Lexeme.code).isPrefixOf? pieces).map (·.flatMap Lexeme.masked) := by
  induction word generalizing pieces with
  | nil => rfl
  | cons a word ih =>
    rw [List.forall_mem_cons] at hword
    cases pieces with
    | nil => rfl
    | cons lexeme pieces =>
      rw [List.forall_mem_cons] at h
      rcases Lexeme.code_or_hidden h.1 with ⟨c, rfl⟩ | hhidden
      · have ih := ih hword.2 h.2
        unfold after? at ih ⊢
        simp only [List.flatMap_cons, Lexeme.masked, List.singleton_append, List.map_cons, List.isPrefixOf?, beq_iff_eq,
          Lexeme.code.injEq, ih]
        split <;> rfl
      · obtain ⟨d, more, hmasked, hquiet⟩ := hhidden.shows
        have hd : a ≠ d := by
          rintro rfl
          exact absurd hword.1 (by simp [(hquiet a List.mem_cons_self).1])
        have hlexeme : (Lexeme.code a == lexeme) = false := by simpa using Ne.symm (hhidden.ne_code a)
        simp [after?, hmasked, List.isPrefixOf?, hd, hlexeme]

theorem head?_flatMap_masked {pieces : List Lexeme} (h : ∀ lexeme ∈ pieces, lexeme.WellFormed) :
    ((pieces.flatMap Lexeme.masked).head?.map isWordChar).getD false = pieces.head?.any Lexeme.isWord := by
  cases pieces with
  | nil => rfl
  | cons lexeme pieces =>
    rw [List.forall_mem_cons] at h
    rcases Lexeme.code_or_hidden h.1 with ⟨c, rfl⟩ | hhidden
    · rfl
    · obtain ⟨d, more, hmasked, hquiet⟩ := hhidden.shows
      simp [hmasked, (hquiet d List.mem_cons_self).1, hhidden.isWord]

/-- The masked text begins with the word where the lexemes do. -/
theorem wholeWord?_flatMap_masked {pieces : List Lexeme} (h : ∀ lexeme ∈ pieces, lexeme.WellFormed) :
    wholeWord? "import".toList (pieces.flatMap Lexeme.masked) =
      (afterImport? pieces).map (·.flatMap Lexeme.masked) := by
  rw [wholeWord?, afterImport?, after?_flatMap_masked (List.all_eq_true.1 (by decide)) h]
  cases hrest : ("import".toList.map Lexeme.code).isPrefixOf? pieces with
  | none => rfl
  | some rest =>
    have hsuffix : rest <:+ pieces := ⟨_, List.isPrefixOf?_eq_some_iff_append_eq.1 hrest⟩
    simp only [Option.map_some, head?_flatMap_masked fun lexeme hmem => h lexeme (hsuffix.subset hmem),
      Option.filter_some]
    cases rest.head?.any Lexeme.isWord <;> rfl

/-- No word begins in text without word characters, and none is joined on to behind it. -/
theorem findWordFrom_quiet {gap : List Char} (hne : gap ≠ []) (hgap : ∀ c ∈ gap, isWordChar c = false)
    (joined : Bool) (rest : List Char) :
    (findWordFrom isWordChar (wholeWord? "import".toList) [] joined (gap ++ rest)).map Prod.snd =
      (findWordFrom isWordChar (wholeWord? "import".toList) [] false rest).map Prod.snd := by
  induction gap generalizing joined with
  | nil => exact absurd rfl hne
  | cons c gap ih =>
    rw [List.forall_mem_cons] at hgap
    have hnone : wholeWord? "import".toList (c :: (gap ++ rest)) = none := by
      by_contra hsome
      obtain ⟨found, hfound⟩ := Option.ne_none_iff_exists'.1 hsome
      obtain rfl : c = 'i' := (List.cons.inj (wholeWord?_suffix hfound)).1
      exact absurd hgap.1 (by decide)
    rw [List.cons_append, findWordFrom_cons hnone, findWordFrom_behind, Option.map_map, hgap.1]
    cases gap with
    | nil => rfl
    | cons d gap => exact ih (by simp) hgap.2 false

/-- The search in the masked text finds the clause. -/
theorem findWordFrom_flatMap_masked {pieces : List Lexeme} (h : ∀ lexeme ∈ pieces, lexeme.WellFormed)
    (joined : Bool) :
    (findWordFrom isWordChar (wholeWord? "import".toList) [] joined (pieces.flatMap Lexeme.masked)).map Prod.snd =
      (clauseFrom joined pieces).map (·.flatMap Lexeme.masked) := by
  induction pieces generalizing joined with
  | nil => rfl
  | cons lexeme pieces ih =>
    have hread := wholeWord?_flatMap_masked h
    rw [List.forall_mem_cons] at h
    rw [List.flatMap_cons] at hread ⊢
    rw [clauseFrom]
    rcases Lexeme.code_or_hidden h.1 with ⟨c, rfl⟩ | hhidden
    · simp only [Lexeme.masked, List.singleton_append] at hread ⊢
      rw [findWordFrom_step, hread, findWordFrom_behind]
      have hstep : (if joined = true then none else (afterImport? (.code c :: pieces)).map (·.flatMap Lexeme.masked)) =
          (if joined = true then none else afterImport? (.code c :: pieces)).map (·.flatMap Lexeme.masked) := by
        split <;> rfl
      rw [hstep]
      cases (if joined = true then none else afterImport? (.code c :: pieces)) with
      | some clause => rfl
      | none =>
        simp only [Option.map_none, Option.map_map]
        exact ih h.2 (isWordChar c)
    · obtain ⟨d, more, hmasked, hquiet⟩ := hhidden.shows
      have hnone : afterImport? (lexeme :: pieces) = none := by
        simp [afterImport?, List.isPrefixOf?, Ne.symm (hhidden.ne_code 'i')]
      rw [hmasked, findWordFrom_quiet (List.cons_ne_nil d more) (fun c hc => (hquiet c hc).1), ih h.2, hnone, ite_self,
        hhidden.isWord]

theorem importedPath?_lexemes {pieces : List Lexeme} (h : ∀ lexeme ∈ pieces, lexeme.WellFormed) :
    importedPath? (pieces.flatMap Lexeme.source) (pieces.flatMap Lexeme.masked) =
      (clauseFrom false pieces).bind fun clause => firstQuoted? (clause.flatMap Lexeme.source) := by
  have hfind := findWordFrom_flatMap_masked h false
  rw [importedPath?, findWord]
  cases hclause : clauseFrom false pieces with
  | none =>
    rw [hclause, Option.map_none, Option.map_eq_none_iff] at hfind
    rw [hfind]
    rfl
  | some clause =>
    obtain ⟨front, rfl⟩ := clauseFrom_suffix hclause
    rw [hclause, Option.map_some] at hfind
    obtain ⟨⟨passed, rest⟩, hfound, rfl⟩ := Option.map_eq_some_iff.1 hfind
    have hplace : ((front ++ clause).flatMap Lexeme.masked).length - (clause.flatMap Lexeme.masked).length =
        (front.flatMap Lexeme.source).length := by
      rw [List.flatMap_append, List.length_append, Nat.add_sub_cancel, Lexeme.length_flatMap_masked]
    rw [hfound]
    simp only [hplace, Option.bind_some]
    rw [List.flatMap_append, List.drop_left]

/-- The statements of a source are its pieces between the semicolons that are code. -/
theorem statements_lexemes {pieces : List Lexeme} (h : ∀ lexeme ∈ pieces, lexeme.WellFormed) :
    statements (pieces.flatMap Lexeme.source) (pieces.flatMap Lexeme.masked) =
      (pieces.splitOnP (· == .code ';')).map fun statement =>
        (statement.flatMap Lexeme.source, statement.flatMap Lexeme.masked) := by
  have hsplit : ∀ part : List Lexeme, .code ';' ∉ part → ∀ lexeme ∈ part, (lexeme == .code ';') = false := by
    intro part hfree lexeme hlexeme
    rw [beq_eq_false_iff_ne]
    rintro rfl
    exact hfree hlexeme
  by_cases hmem : .code ';' ∈ pieces
  · obtain ⟨statement, rest, rfl, hfree⟩ := List.eq_append_cons_of_mem hmem
    rw [List.forall_mem_append, List.forall_mem_cons] at h
    have hshown : ';' ∉ statement.flatMap Lexeme.masked := fun hshown => hfree (Lexeme.semicolon_mem_masked h.1 hshown)
    have hlength := Lexeme.length_flatMap_masked statement
    rw [List.splitOnP_append_cons_of_forall_mem (hsplit _ hfree) _ (by simp), List.map_cons, ← statements_lexemes h.2.2]
    simp only [List.flatMap_append, List.flatMap_cons, Lexeme.source, Lexeme.masked, List.singleton_append]
    rw [statements_semicolon hshown (by simp [hlength]), hlength, List.take_left, ← List.drop_drop, List.drop_left,
      List.drop_one, List.tail_cons]
  · have hshown : ';' ∉ pieces.flatMap Lexeme.masked := fun hshown => hmem (Lexeme.semicolon_mem_masked h hshown)
    rw [statements_free hshown (Lexeme.length_flatMap_masked pieces).symm, List.splitOnP_eq_singleton (hsplit _ hmem),
      List.map_singleton]
termination_by pieces.length

/-- The imported paths are the first quoted texts of the import clauses. -/
theorem importedPaths_eq (source : List Char) :
    importedPaths source (mask source) =
      (importClauses source).filterMap fun clause => firstQuoted? (clause.flatMap Lexeme.source) := by
  have hstatements := statements_lexemes fun lexeme (hmem : lexeme ∈ lexemes source) => Lexeme.wellFormed_of_mem hmem
  rw [source_lexemes] at hstatements
  rw [importedPaths, mask, hstatements, importClauses, List.filterMap_map, List.filterMap_filterMap]
  exact List.filterMap_congr fun statement hmem => importedPath?_lexemes fun lexeme hlexeme =>
    Lexeme.wellFormed_of_mem (subset_of_mem_splitOnP hmem hlexeme)

theorem wellFormed_of_importClauses {source : List Char} {clause : List Lexeme} (h : clause ∈ importClauses source) :
    ∀ lexeme ∈ clause, lexeme.WellFormed := by
  obtain ⟨statement, hstatement, hclause⟩ := List.mem_filterMap.1 h
  exact fun lexeme hmem =>
    Lexeme.wellFormed_of_mem (subset_of_mem_splitOnP hstatement ((clauseFrom_suffix hclause).subset hmem))

/-! ### The first quoted text -/

/-- A character that may stand between the quotes. -/
def isQuotable (c : Char) : Bool :=
  !isQuote c && c != '\n'

/-- What can be quoted: a text on one line that is not empty and holds no quote. -/
def Quotable (text : List Char) : Prop :=
  text ≠ [] ∧ ∀ c ∈ text, isQuotable c = true

theorem not_isQuotable {c : Char} (h : isQuote c = true) : isQuotable c = false := by
  simp [isQuotable, h]

theorem firstQuoted?_quote {c : Char} (h : isQuote c = true) (rest : List Char) :
    firstQuoted? (c :: rest) =
      match rest.takeWhile isQuotable, rest.dropWhile isQuotable with
      | e :: inside, d :: _ => if isQuote d then some (e :: inside) else firstQuoted? rest
      | _, _ => firstQuoted? rest := by
  have hquotable : (fun d => !isQuote d && d != '\n') = isQuotable := rfl
  simp only [firstQuoted?, h, if_true, drop_length_takeWhile, hquotable]
  cases rest.takeWhile isQuotable with
  | nil => rfl
  | cons e inside => cases rest.dropWhile isQuotable <;> rfl

theorem firstQuoted?_not_quote {c : Char} (h : isQuote c = false) (rest : List Char) :
    firstQuoted? (c :: rest) = firstQuoted? rest := by
  simp only [firstQuoted?, h, Bool.false_eq_true, if_false]

theorem quotable_of_firstQuoted? {text path : List Char} (h : firstQuoted? text = some path) : Quotable path := by
  induction text with
  | nil => exact absurd h (by simp [firstQuoted?])
  | cons c rest ih =>
    by_cases hc : isQuote c = true
    · rw [firstQuoted?_quote hc] at h
      split at h
      · next e inside d more hinside _ =>
        split at h
        · obtain rfl := Option.some.inj h
          rw [← hinside]
          exact ⟨by simp [hinside], fun a ha => List.mem_takeWhile_imp ha⟩
        · exact ih h
      · exact ih h
    · rw [firstQuoted?_not_quote (by simpa using hc)] at h
      exact ih h

/-- When nothing is quoted up to a quote, the text between it and the next quote is the first quoted one. -/
theorem firstQuoted?_of_open {front content more : List Char} {quote close : Char} (hquote : isQuote quote = true)
    (hclose : isQuote close = true) (hcontent : Quotable content) (hfront : firstQuoted? (front ++ [quote]) = none) :
    firstQuoted? (front ++ quote :: (content ++ close :: more)) = some content := by
  induction front with
  | nil =>
    obtain ⟨hne, hplain⟩ := hcontent
    obtain ⟨e, inside, rfl⟩ := List.exists_cons_of_ne_nil hne
    rw [List.nil_append, firstQuoted?_quote hquote, takeWhile_stop hplain (not_isQuotable hclose),
      dropWhile_stop hplain (not_isQuotable hclose)]
    simp only [hclose, if_true]
  | cons c front ih =>
    rw [List.cons_append] at hfront ⊢
    by_cases hc : isQuote c = true
    · rw [firstQuoted?_quote hc, takeWhile_append_stop (not_isQuotable hquote),
        dropWhile_append_stop (not_isQuotable hquote)] at hfront ⊢
      revert hfront
      cases front.takeWhile isQuotable with
      | nil => exact ih
      | cons e inside =>
        cases front.dropWhile isQuotable with
        | nil =>
          -- the quote would close what is quoted in front of it
          simp only [List.nil_append, hquote, if_true]
          exact fun hfront => absurd hfront (by simp)
        | cons d after =>
          simp only [List.cons_append]
          split
          · exact fun hfront => absurd hfront (by simp)
          · exact ih
    · rw [firstQuoted?_not_quote (by simpa using hc)] at hfront ⊢
      exact ih hfront

/-! ### The path that a clause names -/

/-- The first closed literal of a clause is read as its path: nothing is quoted in front of its content and the content
can be quoted, or what is quoted there says the same. -/
def ReadsLiteral (clause : List Lexeme) : Prop :=
  ∃ front quote content behind, clause = front ++ .literal quote content true :: behind ∧
    (∀ lexeme ∈ front, lexeme.closedContent? = none) ∧
    match firstQuoted? (front.flatMap Lexeme.source ++ [quote]) with
    | some path => path = content
    | none => Quotable content

theorem source_clause (front : List Lexeme) (quote : Char) (content : List Char) (behind : List Lexeme) :
    (front ++ .literal quote content true :: behind).flatMap Lexeme.source =
      front.flatMap Lexeme.source ++ quote :: (content ++ quote :: behind.flatMap Lexeme.source) := by
  simp [Lexeme.source]

/-- The path of a clause is its first literal exactly when the literal is read as its path. -/
theorem firstQuoted?_eq_firstLiteral?_iff {clause : List Lexeme} (h : ∀ lexeme ∈ clause, lexeme.WellFormed)
    {path : List Char} (hpath : firstQuoted? (clause.flatMap Lexeme.source) = some path) :
    firstLiteral? clause = some path ↔ ReadsLiteral clause := by
  constructor
  · intro hliteral
    obtain ⟨front, lexeme, behind, rfl, hcontent, hfree⟩ := List.findSome?_eq_some_iff.1 hliteral
    obtain ⟨quote, rfl⟩ := Lexeme.closedContent?_eq_some hcontent
    refine ⟨front, quote, path, behind, rfl, hfree, ?_⟩
    rw [source_clause] at hpath
    cases hfront : firstQuoted? (front.flatMap Lexeme.source ++ [quote]) with
    | none => exact quotable_of_firstQuoted? hpath
    | some earlier =>
      have hmore := firstQuoted?_append hfront (path ++ quote :: behind.flatMap Lexeme.source)
      rw [List.append_assoc, List.singleton_append, hpath] at hmore
      exact (Option.some.inj hmore).symm
  · rintro ⟨front, quote, content, behind, rfl, hfree, hreads⟩
    have hliteral : firstLiteral? (front ++ .literal quote content true :: behind) = some content :=
      List.findSome?_eq_some_iff.2 ⟨front, _, behind, rfl, rfl, hfree⟩
    rw [List.forall_mem_append, List.forall_mem_cons] at h
    rw [source_clause] at hpath
    rw [hliteral]
    cases hfront : firstQuoted? (front.flatMap Lexeme.source ++ [quote]) with
    | none =>
      rw [hfront] at hreads
      rw [firstQuoted?_of_open h.2.1 h.2.1 hreads hfront] at hpath
      exact hpath
    | some earlier =>
      have hmore := firstQuoted?_append hfront (content ++ quote :: behind.flatMap Lexeme.source)
      rw [List.append_assoc, List.singleton_append, hpath] at hmore
      rw [hfront] at hreads
      exact (hmore.trans (congrArg some hreads)).symm

/-- The imported paths are the first quoted texts of the import clauses. Each of them is the first closed literal of its
clause exactly when every clause with a quoted text has its first literal read as its path. -/
theorem importedPaths_literal_iff (source : List Char) :
    importedPaths source (mask source) =
        (importClauses source).filterMap (fun clause => firstQuoted? (clause.flatMap Lexeme.source)) ∧
      ((∀ clause ∈ importClauses source, ∀ path ∈ firstQuoted? (clause.flatMap Lexeme.source),
          firstLiteral? clause = some path) ↔
        ∀ clause ∈ importClauses source,
          firstQuoted? (clause.flatMap Lexeme.source) = none ∨ ReadsLiteral clause) := by
  refine ⟨importedPaths_eq source, forall₂_congr fun clause hmem => ?_⟩
  cases hpath : firstQuoted? (clause.flatMap Lexeme.source) with
  | none => simp
  | some path =>
    have hiff := firstQuoted?_eq_firstLiteral?_iff (wellFormed_of_importClauses hmem) hpath
    simpa using hiff

/-- A path in a comment is read in place of the literal behind it, and a path with the other quote in it is cut off. -/
theorem importedPaths_misread :
    let source := "import /* was \"./Old.sol\" */ \"./New.sol\"; import \"./Bob's.sol\";".toList
    importedPaths source (mask source) = ["./Old.sol".toList, "./Bob".toList] ∧
      (importClauses source).map firstLiteral? = [some "./New.sol".toList, some "./Bob's.sol".toList] := by
  decide +kernel

end ContractMigration.Solidity
