import ContractMigration.Proofs.Solidity.Balance
import ContractMigration.Proofs.Solidity.Header
import ContractMigration.Proofs.Solidity.HeaderText
import ContractMigration.Proofs.Solidity.Scanning
import ContractMigration.Proofs.Solidity.Slice

/-!
# One step of the scan

The scan looks at the masked text only where code stands: at a terminator, at the first character of a header, at the
brace that closes a body. So every place where it cuts is a place where the source falls apart (`exists_cut`), and what
a step finds can be said in terms of the pieces of the source and their own masked forms (`scanStep`). What a step
leaves for the next one is a piece with its masked form again.
-/

namespace ContractMigration.Solidity

open Text

/-- The declaration of a header with a body, when the header begins at an index. -/
def Header.declaring (header : Header) (start : Nat) (body : List Char) : Declaration where
  kind := header.kind
  name := String.ofList header.name
  bases := header.bases.map String.ofList
  body := body
  maskedBody := mask body
  isAbstract := header.isAbstract
  offset := start + header.lead

/-- A source falls apart into what stands in front of a declaration, the text from its header up to its brace, its body
and what stands behind it, and each of them is masked as it is masked in the whole. The declaration is also masked in
the same way when it stands alone. -/
structure DeclaresAt (source before head body after : List Char) (header : Header) : Prop where
  source_eq : source = before ++ (head ++ '\x7b' :: (body ++ '\x7d' :: after))
  masked_eq : (mask source).drop before.length = mask head ++ '\x7b' :: (mask body ++ '\x7d' :: mask after)
  alone_eq : mask (head ++ '\x7b' :: (body ++ ['\x7d'])) = mask head ++ '\x7b' :: (mask body ++ ['\x7d'])
  free : ∀ c ∈ mask head, isTerminator c = false
  last : Header.last? (mask head) = some (0, header)
  isDeclaration : header.isDeclaration = true
  balanced : Balanced '\x7b' '\x7d' (mask body)

/-! ### Where the scan cuts -/

theorem showsCode_of_isTerminator {c : Char} (h : isTerminator c = true) : ShowsCode c := by
  simp only [isTerminator, Bool.or_eq_true, beq_iff_eq] at h
  rcases h with rfl | rfl
  · decide
  · decide

theorem showsCode_of_joins {c : Char} (h : Header.joins c = true) : ShowsCode c :=
  ⟨⟨Header.joins_ne h (by decide), Header.joins_ne h (by decide), Header.joins_ne h (by decide)⟩,
    Header.joins_ne h (by decide), Header.joins_ne h (by decide)⟩

/-- The texts in which a header is read begin with code. -/
theorem Header.exists_showsCode_of_read? {text : List Char} {header : Header} (h : Header.read? text = some header) :
    ∃ c rest, text = c :: rest ∧ ShowsCode c := by
  cases text with
  | nil =>
    have hnil : Header.read? [] = none := by decide
    exact absurd h (by simp [hnil])
  | cons c rest =>
    refine ⟨c, rest, rfl, showsCode_of_joins ?_⟩
    by_contra hjoins
    rw [Header.read?_not_joins (by simpa using hjoins)] at h
    exact absurd h (by simp)

theorem declaredBy_eq_some_iff {terminator : Char} {piece : List Char} {start : Nat} {header : Header} :
    declaredBy terminator piece = some (start, header) ↔
      terminator = '\x7b' ∧ Header.last? piece = some (start, header) ∧ header.isDeclaration = true := by
  rw [declaredBy]
  split
  · next hbrace => rw [Option.filter_eq_some_iff, and_iff_right hbrace]
  · next hbrace => simp only [hbrace, false_and, reduceCtorEq]

theorem drop_succ_length_append (front : List Char) (c : Char) (behind : List Char) :
    (front ++ c :: behind).drop (front.length + 1) = behind := by
  rw [List.drop_length_add_append, List.drop_succ_cons, List.drop_zero]

/-- A header in front of a brace and a closer behind it cut the source into the pieces of a declaration. -/
theorem exists_declaresAt {source front inside : List Char} {start length : Nat} {header : Header}
    (hsource : source = front ++ '\x7b' :: inside) (hmask : mask source = mask front ++ '\x7b' :: mask inside)
    (hfree : ∀ c ∈ mask front, isTerminator c = false) (hlast : Header.last? (mask front) = some (start, header))
    (hdeclaration : header.isDeclaration = true) (hclose : closingFrom '\x7b' '\x7d' 1 0 (mask inside) = some length) :
    ∃ before head body after, DeclaresAt source before head body after header ∧ front = before ++ head ∧
      inside = body ++ '\x7d' :: after ∧ mask inside = mask body ++ '\x7d' :: mask after ∧
      before.length = start ∧ body.length = length := by
  obtain ⟨hidden, rest, hinside, rfl, hbalanced⟩ := exists_balanced_of_closingFrom (by decide) hclose
  obtain ⟨body, after, rfl, rfl, rfl⟩ := exists_cut (by decide) hinside
  obtain ⟨ahead, back, hfront, rfl, hread, hheader⟩ := Header.last?_eq_some hlast
  obtain ⟨c, rest, rfl, hc⟩ := Header.exists_showsCode_of_read? hread
  obtain ⟨before, more, rfl, rfl, rfl⟩ := exists_cut hc hfront
  -- the first character of the header is code, so masking begins anew at the header
  have hhead : mask (c :: more) = c :: mask more := mask_plain_cons hc.1 more
  refine ⟨before, c :: more, body, after, ?_, rfl, rfl, hinside, (length_mask before).symm, (length_mask body).symm⟩
  constructor
  case source_eq => rw [hsource, List.append_assoc]
  case masked_eq => rw [hmask, hfront, hinside, hhead, ← length_mask before, List.append_assoc, List.drop_left]
  case alone_eq =>
    have hwhole : mask (before ++ c :: (more ++ '\x7b' :: (body ++ '\x7d' :: after))) =
        mask before ++ c :: (mask more ++ '\x7b' :: mask (body ++ '\x7d' :: after)) := by
      rw [← List.cons_append, ← List.append_assoc, ← hsource, hmask, hfront, List.append_assoc, List.cons_append]
    have hinner := (mask_cut hc (length_mask before) hwhole).2
    rw [List.cons_append, mask_plain_cons hc.1, mask_append_code (by decide) hinner, hhead,
      mask_append_code (by decide) hinside, mask_nil, List.cons_append]
  case free =>
    rw [hfront, List.forall_mem_append] at hfree
    rw [hhead]
    exact hfree.2
  case last =>
    rw [hhead]
    exact hheader
  case isDeclaration => exact hdeclaration
  case balanced => exact hbalanced

/-! ### The step -/

/-- What one step of the scan finds at the first terminator of a source that begins at an index. -/
inductive ScanStep (source : List Char) (offset : Nat) : Scan → Prop where
  | ended : ScanStep source offset ⟨[], none⟩
  | passed {before after : List Char} {terminator : Char} (source_eq : source = before ++ terminator :: after)
      (masked_eq : mask source = mask before ++ terminator :: mask after) :
      ScanStep source offset (scanFrom (offset + before.length + 1) after (mask after))
  | unterminated {before after : List Char} {name : String} (source_eq : source = before ++ '\x7b' :: after)
      (masked_eq : mask source = mask before ++ '\x7b' :: mask after)
      (hopen : closingFrom '\x7b' '\x7d' 1 0 (mask after) = none) :
      ScanStep source offset ⟨[], some ⟨name, offset + before.length⟩⟩
  | declared {before head body after : List Char} {header : Header}
      (h : DeclaresAt source before head body after header) :
      ScanStep source offset
        ⟨header.declaring (offset + before.length) body ::
            (scanFrom (offset + before.length + head.length + body.length + 2) after (mask after)).declarations,
          (scanFrom (offset + before.length + head.length + body.length + 2) after (mask after)).failure⟩

theorem scanStep (source : List Char) (offset : Nat) :
    ScanStep source offset (scanFrom offset source (mask source)) := by
  rcases free_or_piece (mask source) with hfree | ⟨piece, terminator, rest, hmask, hpiece, hterminator⟩
  · rw [scanFrom_free hfree]
    exact .ended
  · obtain ⟨front, inside, hsource, rfl, rfl⟩ := exists_cut (showsCode_of_isTerminator hterminator) hmask
    have hpast : source.drop ((mask front).length + 1) = inside := by
      rw [hsource, length_mask, drop_succ_length_append]
    rw [hmask]
    cases hdeclared : declaredBy terminator (mask front) with
    | none =>
      rw [scanFrom_passed hpiece hterminator hdeclared, hpast, length_mask]
      exact .passed hsource hmask
    | some found =>
      obtain ⟨start, header⟩ := found
      obtain ⟨rfl, hlast, hdeclaration⟩ := declaredBy_eq_some_iff.1 hdeclared
      cases hclose : closingFrom '\x7b' '\x7d' 1 0 (mask inside) with
      | none =>
        rw [scanFrom_unterminated hpiece hterminator hdeclared hclose, length_mask]
        exact .unterminated hsource hmask hclose
      | some length =>
        obtain ⟨before, head, body, after, hcut, rfl, rfl, hinside, rfl, rfl⟩ :=
          exists_declaresAt hsource hmask hpiece hlast hdeclaration hclose
        have hbehind : (mask body ++ '\x7d' :: mask after).drop (body.length + 1) = mask after := by
          rw [← length_mask body, drop_succ_length_append]
        have hfound : declarationOf offset before.length header body.length (body ++ '\x7d' :: after)
            (mask body ++ '\x7d' :: mask after) = header.declaring (offset + before.length) body := by
          rw [declarationOf, List.take_left, List.take_left' (length_mask body)]
          rfl
        have hplace : offset + (mask (before ++ head)).length + body.length + 2 =
            offset + before.length + head.length + body.length + 2 := by
          rw [length_mask, List.length_append]
          omega
        rw [scanFrom_declared hpiece hterminator hdeclared hclose, hpast, hinside, hbehind, drop_succ_length_append,
          hfound, hplace]
        exact .declared hcut

end ContractMigration.Solidity
