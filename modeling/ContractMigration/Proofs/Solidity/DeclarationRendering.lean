import ContractMigration.Proofs.Solidity.Balance
import ContractMigration.Proofs.Solidity.Header
import ContractMigration.Proofs.Solidity.Identifier
import ContractMigration.Proofs.Solidity.Scanning

/-!
# Scanning rendered declarations

Declarations are written out and scanned again. The piece in front of a body is a header, which the search finds, and
a base list, in which it finds nothing more; the body is skipped as a whole because it is balanced. So the scan goes
through the declarations one by one.
-/

namespace ContractMigration.Solidity

open Text

/-! ### The syntax -/

/-- A base of a declaration, with the text in the parentheses behind it if there are any. -/
structure BaseSyntax where
  name : List Char
  arguments : Option (List Char)
deriving DecidableEq, Repr

def BaseSyntax.render (base : BaseSyntax) : List Char :=
  match base.arguments with
  | none => base.name
  | some text => base.name ++ '(' :: (text ++ [')'])

/-- The characters that do not stand in the arguments of a base. -/
def nonArgumentCharacters : List Char :=
  ['"', '\'', '/', '\x7b', '\x7d', ';']

/-- The arguments of a base are balanced, hold no string, comment, brace or semicolon, and none of their words is the
keyword of a kind. -/
structure IsArguments (text : List Char) : Prop where
  round : Balanced '(' ')' text
  square : Balanced '[' ']' text
  plain : ∀ c ∈ text, c ∉ nonArgumentCharacters
  noKind : ∀ kind, (DeclarationKind.word kind).toList ∉ text.splitOnP (!Header.joins ·)

structure BaseSyntax.WellFormed (base : BaseSyntax) : Prop where
  name : IsDotted base.name
  arguments : ∀ text ∈ base.arguments, IsArguments text

structure DeclarationSyntax where
  kind : DeclarationKind
  isAbstract : Bool
  name : List Char
  bases : List BaseSyntax
  body : List Char
deriving DecidableEq, Repr

namespace DeclarationSyntax

/-- The body ends outside comments and strings, and its braces are balanced where they are code. -/
structure WellFormed (declaration : DeclarationSyntax) : Prop where
  name : isIdentifier declaration.name = true
  bases : ∀ base ∈ declaration.bases, base.WellFormed
  ends : mask (declaration.body ++ ['\x7d']) = mask declaration.body ++ ['\x7d']
  balanced : Balanced '\x7b' '\x7d' (mask declaration.body)

def lead (declaration : DeclarationSyntax) : List Char :=
  if declaration.isAbstract then "abstract ".toList else []

def header (declaration : DeclarationSyntax) : List Char :=
  declaration.lead ++ (declaration.kind.word.toList ++ ' ' :: declaration.name)

def baseList (declaration : DeclarationSyntax) : List Char :=
  if declaration.bases.isEmpty then []
  else " is ".toList ++ [',', ' '].intercalate (declaration.bases.map BaseSyntax.render)

def render (declaration : DeclarationSyntax) : List Char :=
  declaration.header ++ declaration.baseList ++ ' ' :: '\x7b' :: (declaration.body ++ ['\x7d', '\n'])

/-- The declaration that is found when the rendering begins at an index of the source. -/
def spanAt (offset : Nat) (declaration : DeclarationSyntax) : Declaration where
  kind := declaration.kind
  name := String.ofList declaration.name
  bases := declaration.bases.map fun base => String.ofList base.name
  body := declaration.body
  maskedBody := mask declaration.body
  isAbstract := declaration.isAbstract
  offset := offset + declaration.lead.length

/-- The declarations that are found when their renderings stand one behind the other. -/
def spansFrom (offset : Nat) : List DeclarationSyntax → List Declaration
  | [] => []
  | declaration :: declarations =>
    declaration.spanAt offset :: spansFrom (offset + declaration.render.length) declarations

end DeclarationSyntax

/-! ### Characters of a header -/

/-- Whether a character may stand in front of the brace of a declaration: it opens no comment and no string, and it
ends no piece. -/
def standsInHeader (c : Char) : Bool :=
  decide (IsPlain c) && !isTerminator c

theorem standsInHeader_iff {c : Char} : standsInHeader c = true ↔ IsPlain c ∧ isTerminator c = false := by
  simp [standsInHeader]

theorem standsInHeader_of_joins {c : Char} (h : Header.joins c = true) : standsInHeader c = true := by
  rw [standsInHeader_iff]
  have hbrace : c ≠ '\x7b' := Header.joins_ne h (by decide)
  have hsemicolon : c ≠ ';' := Header.joins_ne h (by decide)
  refine ⟨⟨Header.joins_ne h (by decide), Header.joins_ne h (by decide), Header.joins_ne h (by decide)⟩, ?_⟩
  simp [isTerminator, hbrace, hsemicolon]

/-! ### The search across a base list -/

/-- Words that name no kind are followed by no header, wherever the text after them begins. -/
theorem readDeclared_of_noKind {text : List Char}
    (h : ∀ kind, (DeclarationKind.word kind).toList ∉ text.splitOnP (!Header.joins ·)) {d : Char}
    (hd : Header.joins d = false) (hblank : isBlank d = false) (rest : List Char) :
    Header.readDeclared (text ++ d :: rest) = none := by
  rcases all_or_first Header.joins text with hall | ⟨word, e, more, rfl, hword, he⟩
  · rw [List.splitOnP_eq_singleton (by simpa using hall)] at h
    exact Header.readDeclared_run hall hd (.inr (.inl hblank))
  · rw [List.splitOnP_append_cons_of_forall_mem (by simpa using hword) e (by simp [he])] at h
    have hne : ∀ kind, word ≠ (DeclarationKind.word kind).toList := fun kind heq => h kind (by simp [heq])
    rw [List.append_assoc, List.cons_append]
    exact Header.readDeclared_run hword he (.inl hne)

theorem readDeclared_trimLeft_of_noKind {text : List Char}
    (h : ∀ kind, (DeclarationKind.word kind).toList ∉ text.splitOnP (!Header.joins ·)) {d : Char}
    (hd : Header.joins d = false) (hblank : isBlank d = false) (rest : List Char) :
    Header.readDeclared (trimLeft (text ++ d :: rest)) = none := by
  induction text with
  | nil =>
    have hhead : trimLeft (d :: rest) = d :: rest := trimLeft_cons hblank rest
    rw [List.nil_append, hhead]
    exact readDeclared_of_noKind h hd hblank rest
  | cons c text ih =>
    by_cases hc : isBlank c = true
    · have hjoins : (!Header.joins c) = true := by simp [Header.not_joins_of_isBlank hc]
      have hsplit : (c :: text).splitOnP (!Header.joins ·) = [] :: text.splitOnP (!Header.joins ·) :=
        List.splitOnP_append_cons [] text hjoins
      rw [List.cons_append, trimLeft_blank hc]
      exact ih fun kind hmem => h kind (by rw [hsplit]; exact List.mem_cons_of_mem _ hmem)
    · have hhead : trimLeft (c :: text ++ d :: rest) = c :: text ++ d :: rest :=
        trimLeft_of_head (by simpa using hc)
      rw [hhead]
      exact readDeclared_of_noKind h hd hblank rest

/-- No header is found in words that name no kind. -/
theorem lastFrom_of_noKind {text : List Char}
    (h : ∀ kind, (DeclarationKind.word kind).toList ∉ text.splitOnP (!Header.joins ·)) {d : Char}
    (hd : Header.joins d = false) (hblank : isBlank d = false) (latest : Option (Nat × Header)) (index : Nat)
    (rest : List Char) :
    Header.lastFrom latest 0 false index (text ++ d :: rest) =
      Header.lastFrom latest 0 false (index + text.length + 1) rest := by
  -- one run of joining characters after the other
  rcases all_or_first Header.joins text with hall | ⟨word, e, more, rfl, hword, he⟩
  · refine Header.lastFrom_run hall hd (Header.read?_run hall hd (.inr (.inl hblank)) fun _ hd' => ?_) latest index
    exact absurd hd' (by simp [hblank])
  · rw [List.splitOnP_append_cons_of_forall_mem (by simpa using hword) e (by simp [he])] at h
    have hne : ∀ kind, word ≠ (DeclarationKind.word kind).toList := fun kind heq => h kind (by simp [heq])
    have hmore : ∀ kind, (DeclarationKind.word kind).toList ∉ more.splitOnP (!Header.joins ·) :=
      fun kind hmem => h kind (List.mem_cons_of_mem _ hmem)
    have hnone : Header.read? (word ++ e :: (more ++ d :: rest)) = none := by
      refine Header.read?_run hword he (.inl hne) fun _ heblank => ?_
      rw [trimLeft_blank heblank]
      exact readDeclared_trimLeft_of_noKind hmore hd hblank rest
    rw [List.append_assoc, List.cons_append, Header.lastFrom_run hword he hnone,
      lastFrom_of_noKind hmore hd hblank]
    congr 1
    simp only [List.length_append, List.length_cons]
    omega
termination_by text.length

section Base

variable {base : BaseSyntax} (h : base.WellFormed)
include h

theorem BaseSyntax.render_standsInHeader : ∀ c ∈ base.render, standsInHeader c = true := by
  have hname : ∀ c ∈ base.name, standsInHeader c = true := fun c hc =>
    standsInHeader_of_joins (Header.joins_of_isDotted h.name c hc)
  unfold BaseSyntax.render
  cases hargs : base.arguments with
  | none => exact hname
  | some text =>
    have htext : ∀ c ∈ text, standsInHeader c = true := by
      intro c hc
      have hplain := (h.arguments text (by simp [hargs])).plain c hc
      simp only [nonArgumentCharacters, List.mem_cons, List.not_mem_nil, or_false, not_or] at hplain
      obtain ⟨hdouble, hsingle, hslash, hopen, hclose, hsemicolon⟩ := hplain
      exact standsInHeader_iff.2 ⟨⟨hslash, hdouble, hsingle⟩, by simp [isTerminator, hopen, hsemicolon]⟩
    simp only [List.forall_mem_append, List.forall_mem_cons]
    exact ⟨hname, by decide, htext, by decide, fun c hc => absurd hc List.not_mem_nil⟩

/-- A base holds no comma outside its parentheses. -/
theorem BaseSyntax.depthBehind_render (depth : Nat) : depthBehind ',' depth base.render = some depth := by
  have hname : depthBehind ',' depth base.name = some depth := by
    refine depthBehind_of_plain (fun c hc => ?_) depth
    have hjoins := Header.joins_of_isDotted h.name c hc
    exact ⟨Header.joins_ne hjoins (by decide), Header.nestingAfter_of_joins hjoins⟩
  unfold BaseSyntax.render
  cases hargs : base.arguments with
  | none => exact hname
  | some text =>
    have hvalid := h.arguments text (by simp [hargs])
    have hcurly : Balanced '\x7b' '\x7d' text := by
      refine balanced_of_not_mem (fun hmem => ?_) fun hmem => ?_
      · exact hvalid.plain _ hmem (by decide)
      · exact hvalid.plain _ hmem (by decide)
    simp only
    rw [depthBehind_append, hname, Option.bind_some,
      depthBehind_bracketed (fun _ => rfl) (fun _ => rfl) (by decide) hvalid.round hvalid.square hcurly]

theorem BaseSyntax.takeWhile_render : base.render.takeWhile (· != '(') = base.name := by
  have hname : ∀ c ∈ base.name, (c != '(') = true := fun c hc => by
    simpa using Header.joins_ne (Header.joins_of_isDotted h.name c hc) (by decide : Header.joins '(' = false)
  unfold BaseSyntax.render
  cases base.arguments with
  | none => exact List.takeWhile_eq_self_iff.2 hname
  | some text => exact takeWhile_stop hname (by decide) _

theorem BaseSyntax.trim_name : trim base.name = base.name := by
  have hblank : ∀ c ∈ base.name, isBlank c = false := fun c hc =>
    Header.not_isBlank_of_joins (Header.joins_of_isDotted h.name c hc)
  apply trim_of_ends
  · exact fun c hc => hblank c (List.mem_of_mem_head? hc)
  · exact fun c hc => hblank c (List.mem_of_mem_getLast? hc)

/-- No header begins in a base that something else than a name follows. -/
theorem BaseSyntax.lastFrom_render {d : Char} (hd : Header.joins d = false) {rest : List Char}
    (hrest : isBlank d = false ∨ trimLeft (d :: rest) = []) (latest : Option (Nat × Header)) (index : Nat) :
    Header.lastFrom latest 0 false index (base.render ++ d :: rest) =
      Header.lastFrom latest 0 false (index + base.render.length + 1) rest := by
  have hname := Header.joins_of_isDotted h.name
  unfold BaseSyntax.render
  cases hargs : base.arguments with
  | none =>
    refine Header.lastFrom_run hname hd (Header.read?_run hname hd ?_ fun _ hblank => ?_) latest index
    · refine .inr (hrest.imp_right fun htrim => ?_)
      rw [htrim]
      rfl
    · rw [hrest.resolve_left (by simp [hblank])]
      rfl
  | some text =>
    have hnone : ∀ more, Header.read? (base.name ++ '(' :: more) = none := fun more =>
      Header.read?_run hname (by decide) (.inr (.inl (by decide))) fun _ hblank => absurd hblank (by decide)
    have hkind := (h.arguments text (by simp [hargs])).noKind
    simp only [List.append_assoc, List.cons_append, List.nil_append, List.length_append, List.length_cons]
    rw [Header.lastFrom_run hname (by decide) (hnone _), lastFrom_of_noKind hkind (by decide) (by decide),
      Header.lastFrom_not_joins hd]
    congr 1
    simp only [List.length_nil]
    omega

end Base

/-! ### The base list -/

/-- What stands between the name and the brace. -/
def DeclarationSyntax.tail (declaration : DeclarationSyntax) : List Char :=
  declaration.baseList ++ [' ']

/-- The bases as they are written behind the word that introduces them. -/
def renderBases (bases : List BaseSyntax) : List Char :=
  [',', ' '].intercalate (bases.map BaseSyntax.render)

theorem renderBases_singleton (base : BaseSyntax) : renderBases [base] = base.render :=
  List.intercalate_singleton

theorem renderBases_cons_cons (base next : BaseSyntax) (bases : List BaseSyntax) :
    renderBases (base :: next :: bases) = base.render ++ ',' :: ' ' :: renderBases (next :: bases) :=
  commaList_cons_cons base.render next.render (bases.map BaseSyntax.render)

theorem space_renderBases {bases : List BaseSyntax} (hne : bases ≠ []) :
    ' ' :: renderBases bases = [','].intercalate (bases.map fun base => ' ' :: base.render) := by
  have hspace := space_commaList (by simpa using hne : bases.map BaseSyntax.render ≠ [])
  rw [List.map_map] at hspace
  exact hspace

section Bases

variable {bases : List BaseSyntax} (h : ∀ base ∈ bases, base.WellFormed)
include h

theorem standsInHeader_renderBases : ∀ c ∈ renderBases bases, standsInHeader c = true := by
  apply forall_mem_commaList (p := fun c => standsInHeader c = true) (by decide) (by decide)
  intro part hpart
  obtain ⟨base, hbase, rfl⟩ := List.mem_map.1 hpart
  exact BaseSyntax.render_standsInHeader (h base hbase)

theorem lastFrom_renderBases (hne : bases ≠ []) (latest : Option (Nat × Header)) (index : Nat) :
    Header.lastFrom latest 0 false index (renderBases bases ++ [' ']) = latest := by
  induction bases generalizing index with
  | nil => exact absurd rfl hne
  | cons base bases ih =>
    rw [List.forall_mem_cons] at h
    cases bases with
    | nil =>
      rw [renderBases_singleton, BaseSyntax.lastFrom_render h.1 (by decide) (.inr (by decide)), Header.lastFrom]
    | cons next bases =>
      rw [renderBases_cons_cons, List.append_assoc, List.cons_append,
        BaseSyntax.lastFrom_render h.1 (by decide) (.inl (by decide)), List.cons_append,
        Header.lastFrom_not_joins (by decide)]
      exact ih h.2 (by simp) _

/-- A base ends with the last character of its name or with a parenthesis. -/
theorem exists_last_renderBases (hne : bases ≠ []) :
    ∃ front c, renderBases bases = front ++ [c] ∧ isBlank c = false := by
  apply commaList_induction (p := fun text => ∃ front c, text = front ++ [c] ∧ isBlank c = false) (by simpa using hne)
  · intro part hpart
    obtain ⟨base, hbase, rfl⟩ := List.mem_map.1 hpart
    have hname := (h base hbase).name
    unfold BaseSyntax.render
    cases base.arguments with
    | none =>
      have hlast := List.getLast_mem hname.ne_nil
      refine ⟨_, _, (List.dropLast_concat_getLast hname.ne_nil).symm, ?_⟩
      exact Header.not_isBlank_of_joins (Header.joins_of_isDotted hname _ hlast)
    | some text => exact ⟨base.name ++ '(' :: text, ')', by simp, by decide⟩
  · rintro part _ - ⟨front, c, rfl, hc⟩
    exact ⟨part ++ ',' :: ' ' :: front, c, by simp, hc⟩

/-- Splitting the base list and cutting off the arguments gives the names back. -/
theorem splitOutsideBrackets_renderBases (hne : bases ≠ []) :
    (splitOutsideBrackets [','] (' ' :: renderBases bases)).map (fun part => trim (part.takeWhile (· != '('))) =
      bases.map (·.name) := by
  have hparts : ∀ part ∈ bases.map fun base => ' ' :: base.render, depthBehind ',' 0 part = some 0 := by
    intro part hpart
    obtain ⟨base, hbase, rfl⟩ := List.mem_map.1 hpart
    rw [depthBehind]
    exact BaseSyntax.depthBehind_render (h base hbase) 0
  rw [space_renderBases hne, splitOutsideBrackets_intercalate (by decide) (by simpa using hne) hparts, List.map_map]
  apply List.map_congr_left
  intro base hbase
  have hname := BaseSyntax.trim_name (h base hbase)
  simp only [Function.comp_apply]
  rw [List.takeWhile_cons_of_pos (by decide), BaseSyntax.takeWhile_render (h base hbase), trim,
    trimLeft_blank (by decide), ← trim, hname]

end Bases

/-! ### The header -/

theorem after?_other {kind other : DeclarationKind} (h : other ≠ kind) (rest : List Char) :
    after? other.word.toList (kind.word.toList ++ rest) = none := by
  cases kind <;> cases other <;> first | exact absurd rfl h | rfl

theorem after?_abstract (kind : DeclarationKind) (rest : List Char) :
    after? "abstract".toList (kind.word.toList ++ rest) = none := by
  cases kind <;> rfl

theorem takeWhile_isBlank_word (kind : DeclarationKind) (rest : List Char) :
    (' ' :: (kind.word.toList ++ rest)).takeWhile isBlank = [' '] := by
  cases kind <;> rfl

theorem readDeclared_word (kind : DeclarationKind) {name : List Char} (hname : isIdentifier name = true)
    (rest : List Char) :
    Header.readDeclared (kind.word.toList ++ ' ' :: (name ++ ' ' :: rest)) =
      some { isAbstract := false, lead := 0, kind, name, width := kind.word.length + 1 + name.length
             tail := ' ' :: rest } := by
  obtain ⟨c, more, rfl⟩ := List.exists_cons_of_ne_nil (ne_nil_of_isIdentifier hname)
  simp only [isIdentifier, Bool.and_eq_true, List.all_eq_true] at hname
  have hc : isBlank c = false := isBlank_of_isIdentifierChar (isIdentifierChar_of_isIdentifierStart hname.1)
  have hgap : (' ' :: c :: (more ++ ' ' :: rest)).takeWhile isBlank = [' '] := by
    rw [List.takeWhile_cons_of_pos (by decide), List.takeWhile_cons_of_neg (by simp [hc])]
  have hmore := takeWhile_stop hname.2 (by decide : isIdentifierChar ' ' = false) rest
  have hrest := dropWhile_stop hname.2 (by decide : isIdentifierChar ' ' = false) rest
  have hmem : kind ∈ DeclarationKind.all := by cases kind <;> decide
  obtain ⟨front, back, hall, hfront⟩ := List.eq_append_cons_of_mem hmem
  refine List.findSome?_eq_some_iff.2 ⟨front, kind, back, hall, ?_, fun other hother => ?_⟩
  · simp only [after?_append_self, List.cons_append, hgap, List.length_singleton, List.drop_succ_cons, List.drop_zero,
      hmore, hrest, hname.1]
    rfl
  · have hne : other ≠ kind := fun heq => hfront (heq ▸ hother)
    simp only [after?_other hne]

namespace DeclarationSyntax

/-- The header of a declaration as it is read in front of a text. -/
def headerBefore (declaration : DeclarationSyntax) (tail : List Char) : Header where
  isAbstract := declaration.isAbstract
  lead := declaration.lead.length
  kind := declaration.kind
  name := declaration.name
  width := declaration.header.length
  tail := tail

section

variable {declaration : DeclarationSyntax} (h : declaration.WellFormed)
include h

theorem read?_header (rest : List Char) :
    Header.read? (declaration.header ++ ' ' :: rest) = some (declaration.headerBefore (' ' :: rest)) := by
  have hread := readDeclared_word declaration.kind h.name rest
  have hword : declaration.kind.word.toList.length = declaration.kind.word.length := String.length_toList
  unfold headerBefore header lead Header.read?
  cases declaration.isAbstract with
  | false =>
    simp only [Bool.false_eq_true, if_false, List.nil_append, List.append_assoc, List.cons_append, List.length_append,
      List.length_cons, List.length_nil, after?_abstract, hread, hword]
    congr 2
    omega
  | true =>
    have hlead : "abstract ".toList = "abstract".toList ++ [' '] := by decide
    have hlength : "abstract".toList.length = "abstract".length := String.length_toList
    simp only [if_true, hlead, List.append_assoc, List.cons_append, List.nil_append, after?_append_self,
      takeWhile_isBlank_word, List.drop_succ_cons, List.drop_zero, hread, Option.map_some, List.length_append,
      List.length_cons, List.length_nil, List.isEmpty_cons, Bool.false_eq_true, if_false, hword, hlength]
    congr 2
    omega

theorem standsInHeader_header : ∀ c ∈ declaration.header, standsInHeader c = true := by
  have hlead : ∀ c ∈ declaration.lead, standsInHeader c = true := by
    unfold lead
    cases declaration.isAbstract <;> exact List.all_eq_true.1 (by decide)
  have hword : ∀ c ∈ declaration.kind.word.toList, standsInHeader c = true := by
    cases declaration.kind <;> exact List.all_eq_true.1 (by decide)
  simp only [header, List.forall_mem_append, List.forall_mem_cons]
  exact ⟨hlead, hword, by decide, fun c hc => standsInHeader_of_joins (Header.joins_of_isIdentifier h.name c hc)⟩

theorem standsInHeader_tail : ∀ c ∈ declaration.tail, standsInHeader c = true := by
  have hspace : ∀ c ∈ [' '], standsInHeader c = true := List.all_eq_true.1 (by decide)
  have his : ∀ c ∈ " is ".toList, standsInHeader c = true := List.all_eq_true.1 (by decide)
  unfold tail baseList
  split
  · exact hspace
  · simp only [List.forall_mem_append]
    exact ⟨⟨his, standsInHeader_renderBases h.bases⟩, hspace⟩

omit h in
theorem header_ne_nil : declaration.header ≠ [] := by
  simp [header]

/-- The header is the last one in the piece that it begins, and the text in front of it holds none. -/
theorem last?_piece {gap : List Char} (hgap : ∀ c ∈ gap, Header.joins c = false) :
    Header.last? (gap ++ declaration.header ++ declaration.tail) =
      some (gap.length, declaration.headerBefore declaration.tail) := by
  have hread := fun rest => read?_header h rest
  have hne : declaration.header ≠ [] := header_ne_nil
  rw [Header.last?, List.append_assoc, Header.lastFrom_gap hgap, Nat.zero_add]
  unfold tail baseList
  split
  · rw [List.nil_append, Header.lastFrom_header (by decide) (hread []) rfl hne, Header.lastFrom]
  · next hbases =>
    have hsome : declaration.bases ≠ [] := by simpa using hbases
    have hjoins : ∀ c ∈ "is".toList, Header.joins c = true := List.all_eq_true.1 (by decide)
    have hkind : ∀ kind, "is".toList ≠ (DeclarationKind.word kind).toList := by
      intro kind
      cases kind <;> decide
    have his : ∀ rest, Header.read? ("is".toList ++ ' ' :: rest) = none := fun rest =>
      Header.read?_run hjoins (by decide) (.inl hkind) fun heq => absurd heq (by decide)
    have htail : " is ".toList ++ renderBases declaration.bases ++ [' '] =
        ' ' :: ("is".toList ++ ' ' :: (renderBases declaration.bases ++ [' '])) := by simp
    rw [← renderBases, htail, Header.lastFrom_header (by decide) (hread _) rfl hne,
      Header.lastFrom_run hjoins (by decide) (his _), lastFrom_renderBases h.bases hsome]

theorem middle_headerBefore :
    (declaration.headerBefore declaration.tail).middle =
      if declaration.bases.isEmpty then [] else "is ".toList ++ renderBases declaration.bases := by
  unfold headerBefore Header.middle tail baseList
  simp only
  split
  · decide
  · next hbases =>
    obtain ⟨front, c, hlast, hc⟩ := exists_last_renderBases h.bases (by simpa using hbases)
    have htail : " is ".toList ++ [',', ' '].intercalate (declaration.bases.map BaseSyntax.render) ++ [' '] =
        ' ' :: ("is ".toList ++ renderBases declaration.bases ++ [' ']) := by simp [renderBases]
    have hhead : trimLeft ("is ".toList ++ renderBases declaration.bases ++ [' ']) =
        "is ".toList ++ renderBases declaration.bases ++ [' '] := trimLeft_cons (by decide) _
    have hend : trimRight ("is ".toList ++ renderBases declaration.bases) =
        "is ".toList ++ renderBases declaration.bases := by
      apply trimRight_of_last
      intro d hd
      rw [hlast, ← List.append_assoc, List.getLast?_concat, Option.mem_some_iff] at hd
      rwa [← hd]
    rw [htail, trim, trimLeft_blank (by decide), hhead, trimRight_concat (by decide), hend]

theorem isDeclaration_headerBefore : (declaration.headerBefore declaration.tail).isDeclaration = true := by
  rw [Header.isDeclaration, middle_headerBefore h]
  by_cases hbases : declaration.bases.isEmpty = true
  · rw [if_pos hbases]
  · rw [if_neg hbases]
    rfl

theorem bases_headerBefore : (declaration.headerBefore declaration.tail).bases = declaration.bases.map (·.name) := by
  rw [Header.bases, middle_headerBefore h]
  split
  · next hbases =>
    rw [List.isEmpty_iff.1 hbases]
    decide
  · next hbases =>
    have hdrop : ("is ".toList ++ renderBases declaration.bases).drop 2 = ' ' :: renderBases declaration.bases := rfl
    rw [hdrop, splitOutsideBrackets_renderBases h.bases (by simpa using hbases)]
    apply List.filter_eq_self.2
    intro name hname
    obtain ⟨base, hbase, rfl⟩ := List.mem_map.1 hname
    simpa using (h.bases base hbase).name.ne_nil

/-- Behind a gap, a rendering is one piece that declares something, and its body closes where it was written. The
newline at its end is left to the next piece. -/
theorem scanFrom_render {gap : List Char} (hgap : gap = [] ∨ gap = ['\n']) (offset : Nat) (more : List Char)
    {behind : Nat} (hbehind : behind + 1 = offset + gap.length + declaration.render.length) :
    scanFrom offset (gap ++ (declaration.render ++ more)) (mask (gap ++ (declaration.render ++ more))) =
      ⟨declaration.spanAt (offset + gap.length) ::
          (scanFrom behind ('\n' :: more) (mask ('\n' :: more))).declarations,
        (scanFrom behind ('\n' :: more) (mask ('\n' :: more))).failure⟩ := by
  obtain ⟨piece, hpiece⟩ : ∃ piece, piece = gap ++ declaration.header ++ declaration.tail := ⟨_, rfl⟩
  have hjoins : ∀ c ∈ gap, Header.joins c = false := by
    rcases hgap with rfl | rfl
    · exact fun c hc => absurd hc List.not_mem_nil
    · exact List.forall_mem_singleton.2 (by decide)
  have hfront : ∀ c ∈ piece, standsInHeader c = true := by
    simp only [hpiece, List.forall_mem_append]
    refine ⟨⟨?_, standsInHeader_header h⟩, standsInHeader_tail h⟩
    rcases hgap with rfl | rfl <;> exact List.all_eq_true.1 (by decide)
  have hdeclared : declaredBy '\x7b' piece = some (gap.length, declaration.headerBefore declaration.tail) := by
    rw [declaredBy, if_pos rfl, hpiece, last?_piece h hjoins, Option.filter_some,
      if_pos (isDeclaration_headerBefore h)]
  have hsource : gap ++ (declaration.render ++ more) =
      piece ++ '\x7b' :: (declaration.body ++ '\x7d' :: '\n' :: more) := by
    simp [hpiece, render, tail]
  have hmasked : mask (gap ++ (declaration.render ++ more)) =
      piece ++ '\x7b' :: (mask declaration.body ++ '\x7d' :: mask ('\n' :: more)) := by
    rw [hsource, mask_code_append fun c hc => (standsInHeader_iff.1 (hfront c hc)).1, mask_plain_cons (by decide),
      mask_append_brace h.ends]
  have hbody : (mask declaration.body).length = declaration.body.length := length_mask _
  have hclose := h.balanced.closingFrom (by decide) (mask ('\n' :: more))
  have hpast : ∀ (front : List Char) (c : Char) (rest : List Char),
      (front ++ c :: rest).drop (front.length + 1) = rest := by
    intro front c rest
    rw [List.drop_length_add_append, List.drop_succ_cons, List.drop_zero]
  have hspan : declarationOf offset gap.length (declaration.headerBefore declaration.tail) declaration.body.length
      (declaration.body ++ '\x7d' :: '\n' :: more) (mask declaration.body ++ '\x7d' :: mask ('\n' :: more)) =
      declaration.spanAt (offset + gap.length) := by
    have hmaskedBody := congrArg (List.take · (mask declaration.body ++ '\x7d' :: mask ('\n' :: more))) hbody
    rw [List.take_left] at hmaskedBody
    rw [declarationOf, bases_headerBefore h, List.map_map, List.take_left, ← hmaskedBody]
    rfl
  have hoffset : offset + piece.length + declaration.body.length + 2 = behind := by
    simp only [hpiece, tail, render, List.length_append, List.length_cons, List.length_nil] at hbehind ⊢
    omega
  rw [hmasked, scanFrom_declared (fun c hc => (standsInHeader_iff.1 (hfront c hc)).2) (by decide) hdeclared hclose,
    hsource, hpast, hpast,
    hbody, hpast, hspan, hoffset]

end

/-- A rendered source is scanned into the declarations it was rendered from. -/
theorem scan_render {declarations : List DeclarationSyntax} (h : ∀ declaration ∈ declarations, declaration.WellFormed) :
    scan (declarations.flatMap render) (mask (declarations.flatMap render)) = ⟨spansFrom 0 declarations, none⟩ := by
  have hscan : ∀ (gap : List Char) (offset : Nat), gap = [] ∨ gap = ['\n'] →
      scanFrom offset (gap ++ declarations.flatMap render) (mask (gap ++ declarations.flatMap render)) =
        ⟨spansFrom (offset + gap.length) declarations, none⟩ := by
    induction declarations with
    | nil =>
      intro gap offset hgap
      refine scanFrom_free ?_ offset _
      rcases hgap with rfl | rfl
      · exact fun c hc => absurd hc List.not_mem_nil
      · exact List.forall_mem_singleton.2 (by decide)
    | cons declaration declarations ih =>
      intro gap offset hgap
      rw [List.forall_mem_cons] at h
      have hlength : 0 < declaration.render.length := by
        simp only [render, List.length_append, List.length_cons]
        omega
      have hbehind : offset + gap.length + declaration.render.length - 1 + 1 =
          offset + gap.length + declaration.render.length := by omega
      have hrest := ih h.2 ['\n'] (offset + gap.length + declaration.render.length - 1) (.inr rfl)
      rw [List.singleton_append, List.length_singleton, hbehind] at hrest
      rw [List.flatMap_cons, scanFrom_render h.1 hgap offset _ hbehind, hrest, spansFrom]
  exact hscan [] 0 (.inl rfl)

/-- An abstract contract with two bases, one of them with nested arguments, and braces in a comment and in a string of
its body, in front of a library. -/
theorem scan_render_token :
    let text : Option (List Char) := some "[f(a, b)], abstract x".toList
    let token : DeclarationSyntax :=
      ⟨.contract, true, "Token".toList, [⟨"lib.ERC20".toList, text⟩, ⟨"contract".toList, none⟩],
        "/* \x7d */ s = \"\x7b\"; f(\x7b\x7d);".toList⟩
    let math : DeclarationSyntax := ⟨.library, false, "$Math".toList, [], []⟩
    (∀ declaration ∈ [token, math], declaration.WellFormed) ∧
      scan ([token, math].flatMap render) (mask ([token, math].flatMap render)) =
        ⟨[token.spanAt 0, math.spanAt token.render.length], none⟩ := by
  intro text token math
  have htext : IsArguments "[f(a, b)], abstract x".toList := by
    have hplain : "[f(a, b)], abstract x".toList.all (fun c => decide (c ∉ nonArgumentCharacters)) = true := by decide
    refine ⟨by decide, by decide, fun c hc => of_decide_eq_true (List.all_eq_true.1 hplain c hc), fun kind => ?_⟩
    cases kind <;> decide
  have hbases : ∀ base ∈ token.bases, base.WellFormed := by
    refine List.forall_mem_cons.2 ⟨⟨by decide, fun _ h => ?_⟩, List.forall_mem_singleton.2 ⟨by decide, fun _ h => ?_⟩⟩
    · rwa [← Option.some.inj h]
    · exact absurd h (by simp)
  have hvalid : ∀ declaration ∈ [token, math], declaration.WellFormed := by
    refine List.forall_mem_cons.2 ⟨⟨by decide, hbases, by decide +kernel, by decide +kernel⟩, ?_⟩
    exact List.forall_mem_singleton.2 ⟨by decide, fun _ h => absurd h List.not_mem_nil, by decide, by decide⟩
  refine ⟨hvalid, ?_⟩
  rw [scan_render hvalid, spansFrom, spansFrom, spansFrom, Nat.zero_add]

end DeclarationSyntax

end ContractMigration.Solidity
