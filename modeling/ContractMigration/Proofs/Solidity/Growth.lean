import ContractMigration.Proofs.Solidity.Scanning
import ContractMigration.Proofs.Text.Search
import ContractMigration.Solidity.Directive

/-!
# Readings of a text that goes on

A source is replaced by a longer one, and its masked form `front ++ last` by one that begins with `front`, where
`last` holds no character that matters. The declarations already yielded stay the first ones, a version expression
that was found stays, and the imported paths stay the first ones.
-/

namespace ContractMigration.Solidity

open Text

/-! ### Declarations -/

theorem declarationOf_append (offset start : Nat) (header : Header) {length : Nat} {inside rest : List Char}
    (hinside : length ≤ inside.length) (hrest : length ≤ rest.length) (more last longer : List Char) :
    declarationOf offset start header length (inside ++ more) (rest ++ longer) =
      declarationOf offset start header length inside (rest ++ last) := by
  simp only [declarationOf, List.take_append_of_le_length hinside, List.take_append_of_le_length hrest]

/-- Every decision before a declaration is yielded depends on the masked text up to its closing brace only. -/
theorem scanFrom_prefix_append {last : List Char} (hfree : ∀ c ∈ last, isTerminator c = false)
    (hbrace : '\x7d' ∉ last) (offset : Nat) {front source : List Char}
    (hlen : source.length = front.length + last.length) (more longer : List Char) :
    (scanFrom offset source (front ++ last)).declarations <+:
      (scanFrom offset (source ++ more) (front ++ longer)).declarations := by
  rcases free_or_piece front with hnone | ⟨piece, terminator, rest, rfl, hpiece, hterminator⟩
  · rw [scanFrom_free (List.forall_mem_append.2 ⟨hnone, hfree⟩)]
    exact List.nil_prefix
  · rw [List.length_append, List.length_cons] at hlen
    have hdrop : (source ++ more).drop (piece.length + 1) = source.drop (piece.length + 1) ++ more :=
      List.drop_append_of_le_length (by omega)
    have hinside : (source.drop (piece.length + 1)).length = rest.length + last.length := by
      rw [List.length_drop]
      omega
    rw [List.append_assoc, List.cons_append, List.append_assoc, List.cons_append]
    cases hdeclared : declaredBy terminator piece with
    | none =>
      rw [scanFrom_passed hpiece hterminator hdeclared, scanFrom_passed hpiece hterminator hdeclared, hdrop]
      exact scanFrom_prefix_append hfree hbrace _ hinside more longer
    | some found =>
      obtain ⟨start, header⟩ := found
      cases hclose : closingFrom '\x7b' '\x7d' 1 0 (rest ++ last) with
      | none =>
        rw [scanFrom_unterminated hpiece hterminator hdeclared hclose]
        exact List.nil_prefix
      | some length =>
        obtain ⟨hlt, hclose'⟩ := closingFrom_append hbrace hclose longer
        have hbehind : ∀ more : List Char, (rest ++ more).drop (length + 1) = rest.drop (length + 1) ++ more :=
          fun more => List.drop_append_of_le_length (by omega)
        have hsource : (source.drop (piece.length + 1) ++ more).drop (length + 1) =
            (source.drop (piece.length + 1)).drop (length + 1) ++ more := List.drop_append_of_le_length (by omega)
        rw [scanFrom_declared hpiece hterminator hdeclared hclose,
          scanFrom_declared hpiece hterminator hdeclared hclose', hdrop,
          declarationOf_append offset start header (by omega) (by omega) more last longer, hsource, hbehind, hbehind]
        refine List.cons_prefix_cons.2 ⟨rfl, scanFrom_prefix_append hfree hbrace _ ?_ more longer⟩
        simp only [List.length_drop]
        omega
termination_by front.length

/-! ### The version expression -/

theorem readPragma_suffix {text rest : List Char} (h : readPragma text = some rest) :
    ∃ taken, text = taken ++ rest ∧ 6 ≤ taken.length := by
  unfold readPragma at h
  split at h
  · exact absurd h (by simp)
  · next found hfound =>
    have htext := after?_eq_some_iff.1 hfound
    split at h
    · exact absurd h (by simp)
    · next c more =>
      split at h
      · have hword := wholeWord?_suffix h
        refine ⟨"pragma".toList ++ (c :: more).takeWhile isBlank ++ "solidity".toList, ?_, by simp⟩
        rw [htext, List.append_assoc, ← hword, List.append_assoc, trimLeft, List.takeWhile_append_dropWhile]
      · exact absurd h (by simp)

/-- No semicolon is part of a pragma, so a text that holds one settles what is read. -/
theorem readPragma_append {text : List Char} (h : ';' ∈ text) (more : List Char) :
    readPragma (text ++ more) = (readPragma text).map (· ++ more) := by
  have hafter : after? "pragma".toList _ = _ := after?_append (.inr ⟨';', h, by decide⟩) more
  unfold readPragma
  rw [hafter]
  cases hfound : after? "pragma".toList text with
  | none => rfl
  | some rest =>
    have hrest : ';' ∈ rest := by
      rw [after?_eq_some_iff.1 hfound, List.mem_append] at h
      exact h.resolve_left (by decide)
    obtain ⟨c, rest, rfl⟩ := List.exists_cons_of_ne_nil (List.ne_nil_of_mem hrest)
    have htrim : trimLeft ((c :: rest) ++ more) = trimLeft (c :: rest) ++ more := by
      have hstop : (List.dropWhile isBlank (c :: rest)).isEmpty = false := by
        rw [List.isEmpty_eq_false_iff]
        intro hnil
        exact absurd (List.dropWhile_eq_nil_iff.1 hnil _ hrest) (by decide)
      rw [trimLeft, trimLeft, List.dropWhile_append, hstop]
      rfl
    have hleft : ';' ∈ trimLeft (c :: rest) := by
      rw [← List.takeWhile_append_dropWhile (p := isBlank) (l := c :: rest), List.mem_append] at hrest
      exact hrest.resolve_left fun hblank => absurd (List.mem_takeWhile_imp hblank) (by decide)
    have hword : wholeWord? "solidity".toList _ = _ := wholeWord?_append (.inr ⟨';', hleft, by decide⟩) more
    simp only [Option.map_some, List.cons_append] at htrim ⊢
    rw [htrim]
    by_cases hblank : isBlank c = true
    · rw [if_pos hblank, if_pos hblank, hword]
    · rw [if_neg hblank, if_neg hblank]
      rfl

/-- A rest that is longer than the end of a text begins in front of that end. -/
theorem eq_append_of_suffix {front last taken rest : List Char} (h : front ++ last = taken ++ rest)
    (hlen : last.length < rest.length) : ∃ left, left ≠ [] ∧ rest = left ++ last ∧ front = taken ++ left := by
  rcases List.append_eq_append_iff.1 h with ⟨middle, htaken, hlast⟩ | ⟨middle, hfront, hrest⟩
  · have := congrArg List.length hlast
    rw [List.length_append] at this
    omega
  · refine ⟨middle, ?_, hrest, hfront⟩
    rintro rfl
    rw [hrest] at hlen
    exact absurd hlen (by simp)

theorem versionExpression_append {last : List Char} (hsemicolon : ';' ∉ last) {front source : List Char}
    (hlen : source.length = front.length + last.length) (more longer : List Char)
    (h : versionExpression source (front ++ last) ≠ "unknown".toList) :
    versionExpression (source ++ more) (front ++ longer) = versionExpression source (front ++ last) := by
  cases hfind : findWord isWordChar readPragma (front ++ last) with
  | none => exact absurd (by simp only [versionExpression, hfind]) h
  | some found =>
    obtain ⟨before, rest⟩ := found
    obtain ⟨taken, htaken, -⟩ := findWordFrom_suffix (fun _ _ => readPragma_suffix) hfind
    by_cases hend : ';' ∈ rest
    · -- the semicolon ends the expression in front of `last`
      obtain ⟨left, hleft, hrest, hfront⟩ : ∃ left, ';' ∈ left ∧ rest = left ++ last ∧ front = taken ++ left := by
        rcases List.append_eq_append_iff.1 htaken with ⟨middle, -, hlast⟩ | ⟨middle, hfront, hrest⟩
        · exact absurd (hlast ▸ List.mem_append_right _ hend) hsemicolon
        · rw [hrest, List.mem_append] at hend
          exact ⟨middle, hend.resolve_right hsemicolon, hrest, hfront⟩
      have hother : findWord isWordChar readPragma (front ++ longer) = some (before, left ++ longer) :=
        findWordFrom_append (fun _ _ => readPragma_suffix) (by decide)
          (fun taken _ more => readPragma_append (List.mem_append_right _ hleft) more) (hrest ▸ hfind) longer
      obtain ⟨expression, behind, rfl, hfirst⟩ := List.eq_append_cons_of_mem hleft
      have hstop : ∀ tail : List Char,
          (expression ++ ';' :: behind ++ tail).takeWhile (· != ';') = expression := by
        intro tail
        rw [List.append_assoc, List.cons_append]
        refine takeWhile_stop (fun c hc => ?_) (by decide) _
        rw [bne_iff_ne]
        rintro rfl
        exact hfirst hc
      have hlong : ∀ tail : List Char, expression.length ≠ (expression ++ ';' :: behind ++ tail).length := by
        intro tail
        simp only [List.length_append, List.length_cons]
        omega
      have hplace : ∀ tail : List Char, (front ++ tail).length - (expression ++ ';' :: behind ++ tail).length =
          taken.length := by
        intro tail
        rw [hfront]
        simp only [List.length_append, List.length_cons]
        omega
      have hslice : ((source ++ more).drop taken.length).take expression.length =
          (source.drop taken.length).take expression.length := by
        rw [hfront] at hlen
        simp only [List.length_append, List.length_cons] at hlen
        rw [List.drop_append_of_le_length (by omega),
          List.take_append_of_le_length (by rw [List.length_drop]; omega)]
      simp only [versionExpression, hfind, hother, hrest, hstop, hlong, hplace, hslice, if_false]
    · refine absurd ?_ h
      have hall : rest.takeWhile (· != ';') = rest :=
        List.takeWhile_eq_self_iff.2 fun c hc => by
          rw [bne_iff_ne]
          rintro rfl
          exact hend hc
      simp only [versionExpression, hfind, hall, if_true]

/-! ### Imports -/

theorem firstQuoted?_eq_none {text : List Char} (h : ∀ c ∈ text, isQuote c = false) : firstQuoted? text = none := by
  induction text with
  | nil => rfl
  | cons c rest ih =>
    rw [List.forall_mem_cons] at h
    simp only [firstQuoted?, h.1, Bool.false_eq_true, if_false]
    exact ih h.2

theorem two_le_length_of_firstQuoted? {text path : List Char} (h : firstQuoted? text = some path) :
    2 ≤ text.length := by
  match text with
  | [] => exact absurd h (by simp [firstQuoted?])
  | [c] => exact absurd h (by simp [firstQuoted?])
  | _ :: _ :: rest =>
    simp only [List.length_cons]
    omega

/-- A quoted text is found where it was when the text goes on: a quote that is still open has no quote behind it. -/
theorem firstQuoted?_append {text path : List Char} (h : firstQuoted? text = some path) (more : List Char) :
    firstQuoted? (text ++ more) = some path := by
  induction text with
  | nil => exact absurd h (by simp [firstQuoted?])
  | cons c rest ih =>
    rw [List.cons_append]
    simp only [firstQuoted?] at h ⊢
    by_cases hquote : isQuote c = true
    · simp only [hquote, if_true] at h ⊢
      rcases all_or_first (fun d => !isQuote d && d != '\n') rest with hall | ⟨word, d, after, rfl, hword, hd⟩
      · have hnone : firstQuoted? rest = none := firstQuoted?_eq_none fun d hd => by
          have := hall d hd
          simp only [Bool.and_eq_true, Bool.not_eq_true'] at this
          exact this.1
        rw [List.takeWhile_eq_self_iff.2 hall, List.drop_length] at h
        simp only [hnone, reduceCtorEq] at h
      · rw [takeWhile_stop hword hd, List.drop_left] at h
        rw [List.append_assoc, List.cons_append, takeWhile_stop hword hd, List.drop_left]
        rw [List.append_assoc, List.cons_append] at ih
        cases word with
        | nil => exact ih h
        | cons e word =>
          simp only at h ⊢
          by_cases hd' : isQuote d = true
          · rwa [if_pos hd'] at h ⊢
          · rw [if_neg hd'] at h ⊢
            exact ih h
    · simp only [hquote] at h ⊢
      exact ih h

theorem wholeWord?_consumes (word : List Char) (text rest : List Char) (h : wholeWord? word text = some rest) :
    ∃ taken, text = taken ++ rest ∧ word.length ≤ taken.length :=
  ⟨word, wholeWord?_suffix h, Nat.le_refl _⟩

theorem importedPath?_append {front last source path : List Char} (hlast : last.length ≤ 1)
    (hlen : source.length = front.length + last.length) (h : importedPath? source (front ++ last) = some path)
    (more longer : List Char) : importedPath? (source ++ more) (front ++ longer) = some path := by
  cases hfind : findWord isWordChar (wholeWord? "import".toList) (front ++ last) with
  | none => simp only [importedPath?, hfind, reduceCtorEq] at h
  | some found =>
    obtain ⟨before, rest⟩ := found
    simp only [importedPath?, hfind] at h
    obtain ⟨taken, htaken, -⟩ := findWordFrom_suffix (wholeWord?_consumes _) hfind
    have htwo := two_le_length_of_firstQuoted? h
    have htotal := congrArg List.length htaken
    simp only [List.length_drop, List.length_append] at htwo htotal
    obtain ⟨left, hleft, rfl, rfl⟩ := eq_append_of_suffix htaken (by omega)
    have hother : findWord isWordChar (wholeWord? "import".toList) (taken ++ left ++ longer) =
        some (before, left ++ longer) := by
      refine findWordFrom_append (wholeWord?_consumes _) (by decide) (fun word hword more => ?_) hfind longer
      refine wholeWord?_append (.inl ?_) more
      rw [List.length_append]
      have := List.length_pos_iff.2 hleft
      omega
    have hplace : ∀ tail : List Char, (taken ++ left ++ tail).length - (left ++ tail).length = taken.length := by
      intro tail
      simp only [List.length_append]
      omega
    rw [hplace] at h
    simp only [importedPath?, hother, hplace]
    rw [List.length_append] at hlen
    rw [List.drop_append_of_le_length (by omega)]
    exact firstQuoted?_append h more

theorem statements_free {source masked : List Char} (hfree : ';' ∉ masked) (hlen : source.length = masked.length) :
    statements source masked = [(source, masked)] := by
  rw [statements, List.splitOnP_eq_singleton, List.map_singleton, List.unzip_zip hlen]
  intro pair hpair
  have hmem := (List.of_mem_zip hpair).2
  simp only [beq_eq_false_iff_ne]
  intro heq
  exact hfree (heq ▸ hmem)

theorem statements_semicolon {statement : List Char} (hfree : ';' ∉ statement) {source : List Char}
    (hlen : statement.length < source.length) (rest : List Char) :
    statements source (statement ++ ';' :: rest) =
      (source.take statement.length, statement) :: statements (source.drop (statement.length + 1)) rest := by
  obtain ⟨text, c, after, rfl, htext⟩ :
      ∃ text c after, source = text ++ c :: after ∧ text.length = statement.length := by
    refine ⟨source.take statement.length, source[statement.length], source.drop (statement.length + 1), ?_, ?_⟩
    · rw [← List.drop_eq_getElem_cons hlen, List.take_append_drop]
    · rw [List.length_take]
      omega
  have hstatement : ∀ pair ∈ text.zip statement, (pair.2 == ';') = false := by
    intro pair hpair
    have hmem := (List.of_mem_zip hpair).2
    simp only [beq_eq_false_iff_ne]
    intro heq
    exact hfree (heq ▸ hmem)
  rw [← htext, List.take_left, ← List.drop_drop, List.drop_left, List.drop_one, List.tail_cons]
  unfold statements
  rw [List.zip_append htext, List.zip_cons_cons,
    List.splitOnP_append_cons_of_forall_mem hstatement (c, ';') (by simp), List.map_cons, List.unzip_zip htext]

theorem ne_semicolon_of_all {text : List Char} (h : ∀ c ∈ text, (c != ';') = true) : ';' ∉ text :=
  fun hmem => absurd (h _ hmem) (by decide)

/-- The first statement of a text that goes on begins with the beginning that holds no semicolon. -/
theorem exists_statements_eq_cons {source front : List Char} (hfree : ';' ∉ front)
    (hlen : source.length = front.length) {more rest : List Char}
    (hmore : (source ++ more).length = (front ++ rest).length) :
    ∃ more' rest' others,
      statements (source ++ more) (front ++ rest) = (source ++ more', front ++ rest') :: others := by
  rcases all_or_first (· != ';') rest with hall | ⟨word, d, after, rfl, hword, hd⟩
  · have hwhole : ';' ∉ front ++ rest := by simp [hfree, ne_semicolon_of_all hall]
    exact ⟨more, rest, [], statements_free hwhole hmore⟩
  · obtain rfl : d = ';' := by simpa using hd
    have hstatement : ';' ∉ front ++ word := by simp [hfree, ne_semicolon_of_all hword]
    simp only [List.length_append, List.length_cons] at hmore
    rw [← List.append_assoc, statements_semicolon hstatement (by simp only [List.length_append]; omega),
      List.take_append, List.take_of_length_le (l := source) (by rw [List.length_append]; omega)]
    exact ⟨_, word, _, rfl⟩

theorem importedPaths_of_statements {source masked text hidden : List Char} {others : List (List Char × List Char)}
    (h : statements source masked = (text, hidden) :: others) :
    importedPaths source masked =
      (importedPath? text hidden).toList ++ others.filterMap fun (text, hidden) => importedPath? text hidden := by
  rw [importedPaths, h]
  cases hpath : importedPath? text hidden with
  | none => simp only [List.filterMap_cons, hpath, Option.toList_none, List.nil_append]
  | some path => simp only [List.filterMap_cons, hpath, Option.toList_some, List.singleton_append]

theorem importedPaths_prefix_append {last last' : List Char} (hlast : last.length ≤ 1) (hlast' : last'.length = last.length)
    (hsemicolon : ';' ∉ last ++ last') {front source : List Char} (hlen : source.length = front.length + last.length)
    {more rest : List Char} (hmore : (source ++ more).length = (front ++ last' ++ rest).length) :
    importedPaths source (front ++ last) <+: importedPaths (source ++ more) (front ++ last' ++ rest) := by
  have hfree := hsemicolon
  rw [List.mem_append, not_or] at hfree
  rcases all_or_first (· != ';') front with hall | ⟨statement, d, after, rfl, hstatement, hd⟩
  · have hfront := ne_semicolon_of_all hall
    have hmem : ';' ∉ front ++ last := by simp [hfront, hfree.1]
    have hmem' : ';' ∉ front ++ last' := by simp [hfront, hfree.2]
    obtain ⟨more', rest', others, hfirst⟩ :=
      exists_statements_eq_cons hmem' (by rw [List.length_append, hlen, hlast']) hmore
    rw [importedPaths_of_statements (statements_free hmem (by rw [List.length_append, hlen])),
      importedPaths_of_statements hfirst, List.filterMap_nil, List.append_nil]
    cases hpath : importedPath? source (front ++ last) with
    | none => exact List.nil_prefix
    | some path =>
      have hsame := importedPath?_append hlast hlen hpath more' (last' ++ rest')
      rw [← List.append_assoc] at hsame
      rw [hsame]
      exact List.prefix_append _ _
  · obtain rfl : d = ';' := by simpa using hd
    have hfirst := ne_semicolon_of_all hstatement
    simp only [List.length_append, List.length_cons] at hlen hmore
    have hbound : statement.length + 1 ≤ source.length := by omega
    have hrest : (source.drop (statement.length + 1)).length = after.length + last.length := by
      rw [List.length_drop]
      omega
    have hrest' : (source.drop (statement.length + 1) ++ more).length = (after ++ last' ++ rest).length := by
      simp only [List.length_append, List.length_drop]
      omega
    have ih := importedPaths_prefix_append hlast hlast' hsemicolon hrest hrest'
    simp only [List.append_assoc, List.cons_append] at ih ⊢
    rw [importedPaths_of_statements (statements_semicolon hfirst (by omega) _),
      importedPaths_of_statements (statements_semicolon hfirst (by rw [List.length_append]; omega) _),
      List.take_append_of_le_length (by omega), List.drop_append_of_le_length hbound]
    exact (List.prefix_append_right_inj _).2 ih
termination_by front.length

end ContractMigration.Solidity
