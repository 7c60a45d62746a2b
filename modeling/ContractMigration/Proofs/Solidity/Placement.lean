import ContractMigration.Proofs.Solidity.ScanStep
import ContractMigration.Proofs.Text.Blank

/-!
# Where the declarations of a scan stand

The masked source alone tells where a declaration stands: its header begins at the kind keyword or at the `abstract` in
front of it, its body is opened by the first brace behind the keyword and reaches to the matching one. Everything that
is recorded about a declaration is read off the source at these places (`Declaration.StandsIn`), and the places follow
each other in the order of the declarations, an unclosed brace behind all of them (`scan_placedIn`).

The argument has two parts. The pieces into which a source falls apart at a declaration have their places
(`DeclaresAt.standsIn`). And a scan that begins in the middle of a source, at a place where its text is masked as it is
masked in the whole, finds pieces of the whole source (`scanFrom_laidOut`).
-/

namespace ContractMigration.Solidity

open Text

/-! ### Places -/

/-- The characters of a text from one index up to another. -/
def slice (text : List Char) (first past : Nat) : List Char :=
  (text.take past).drop first

theorem slice_append {front inside behind : List Char} {first past : Nat} (hfirst : front.length = first)
    (hpast : front.length + inside.length = past) : slice (front ++ (inside ++ behind)) first past = inside := by
  rw [slice, ← hpast, ← List.append_assoc, ← List.length_append, List.take_left, ← hfirst, List.drop_left]

theorem slice_behind (front : List Char) (c : Char) (inside behind : List Char) :
    slice (front ++ c :: (inside ++ behind)) (front.length + 1) (front.length + inside.length + 1) = inside := by
  rw [← List.singleton_append, ← List.append_assoc]
  apply slice_append
  · rw [List.length_append, List.length_singleton]
  · rw [List.length_append, List.length_singleton]
    omega

namespace Declaration

variable (masked : List Char) (declaration : Declaration)

/-- The index of the brace that opens the body: the first one behind the kind keyword. -/
def opening : Nat :=
  declaration.offset + ((masked.drop declaration.offset).takeWhile (· != '\x7b')).length

/-- The index of the brace that closes the body. -/
def closing : Nat :=
  declaration.opening masked + declaration.body.length + 1

/-- The index where the header begins: at the kind keyword or at the `abstract` in front of it. -/
def start : Nat :=
  if declaration.isAbstract then (trimRight (masked.take declaration.offset)).length - "abstract".length
  else declaration.offset

/-- The declaration as it stands in a source, from its header to its closing brace. -/
def text (source : List Char) (declaration : Declaration) : List Char :=
  slice source (declaration.start (mask source)) (declaration.closing (mask source) + 1)

/-- Where a declaration stands in a source, told from the masked source alone. -/
structure StandsIn (source : List Char) (declaration : Declaration) : Prop where
  header : ∃ gap rest, IsGap gap ∧
    (mask source).drop declaration.offset =
      declaration.kind.word.toList ++ (gap ++ (declaration.name.toList ++ rest)) ∧
    declaration.offset + (declaration.kind.word.toList ++ (gap ++ declaration.name.toList)).length ≤
      declaration.opening (mask source)
  lead : declaration.start (mask source) ≤ declaration.offset ∧
    IsLead declaration.isAbstract (slice (mask source) (declaration.start (mask source)) declaration.offset)
  opens : (mask source)[declaration.opening (mask source)]? = some '\x7b'
  closes : matchingBracket (mask source) (declaration.opening (mask source)) =
    .ok (some (declaration.closing (mask source)))
  body_eq : declaration.body =
    slice source (declaration.opening (mask source) + 1) (declaration.closing (mask source))
  maskedBody_eq : declaration.maskedBody =
    slice (mask source) (declaration.opening (mask source) + 1) (declaration.closing (mask source))
  length_eq : declaration.maskedBody.length = declaration.body.length
  balanced : Balanced '\x7b' '\x7d' declaration.maskedBody
  masked : mask declaration.body = declaration.maskedBody

end Declaration

/-! ### The places of the pieces -/

namespace DeclaresAt

variable {source before head body after : List Char} {header : Header}
  (h : DeclaresAt source before head body after header)
include h

theorem exists_hidden : ∃ hidden, hidden.length = before.length ∧
    mask source = hidden ++ (mask head ++ '\x7b' :: (mask body ++ '\x7d' :: mask after)) := by
  refine ⟨(mask source).take before.length, ?_, ?_⟩
  · rw [List.length_take, length_mask, h.source_eq, List.length_append]
    omega
  · rw [← h.masked_eq, List.take_append_drop]

theorem exists_reads : ∃ lead gap, header.Reads (mask head) lead gap := by
  obtain ⟨front, back, hhead, hfront, hread, -⟩ := Header.last?_eq_some h.last
  rw [List.length_eq_zero_iff.1 hfront, List.nil_append] at hhead
  rw [hhead]
  exact Header.read?_reads hread

theorem opening : (header.declaring before.length body).opening (mask source) = before.length + head.length := by
  obtain ⟨lead, gap, hreads⟩ := h.exists_reads
  have hfree := h.free
  have hlength := congrArg List.length hreads.text_eq
  rw [length_mask, List.length_append] at hlength
  rw [hreads.text_eq, List.forall_mem_append] at hfree
  have hstop : ∀ c ∈ header.kind.word.toList ++ (gap ++ (header.name ++ header.tail)), (c != '\x7b') = true := by
    intro c hc
    have := hfree.2 c hc
    simp only [isTerminator, Bool.or_eq_false_iff] at this
    simpa using this.1
  simp only [Declaration.opening, Header.declaring]
  rw [← List.drop_drop, h.masked_eq, hreads.text_eq, hreads.lead_eq, List.append_assoc, List.drop_left,
    takeWhile_stop hstop (by decide)]
  omega

theorem closing : (header.declaring before.length body).closing (mask source) =
    before.length + head.length + body.length + 1 := by
  rw [Declaration.closing, h.opening]
  rfl

theorem start : (header.declaring before.length body).start (mask source) = before.length := by
  obtain ⟨lead, gap, hreads⟩ := h.exists_reads
  obtain ⟨hidden, hhidden, hmask⟩ := h.exists_hidden
  have hlead := hreads.isLead
  rw [IsLead] at hlead
  cases habstract : header.isAbstract with
  | false =>
    rw [habstract, if_neg (by decide)] at hlead
    simp only [Declaration.start, Header.declaring, habstract, hreads.lead_eq, hlead]
    rfl
  | true =>
    rw [habstract, if_pos rfl] at hlead
    obtain ⟨space, hspace, rfl⟩ := hlead
    have hprefix : (hidden ++ "abstract".toList) ++ space <+: mask source := by
      rw [hmask, hreads.text_eq]
      simp only [List.append_assoc, List.prefix_append_right_inj]
      exact List.prefix_append _ _
    have hlength : ((hidden ++ "abstract".toList) ++ space).length = before.length + header.lead := by
      rw [hreads.lead_eq, List.append_assoc, List.length_append, hhidden]
    have htake : (mask source).take (before.length + header.lead) = (hidden ++ "abstract".toList) ++ space := by
      rw [← hlength]
      exact (List.prefix_iff_eq_take.1 hprefix).symm
    have hlast : trimRight (hidden ++ "abstract".toList) = hidden ++ "abstract".toList := by
      apply trimRight_of_last
      have hend : (hidden ++ "abstract".toList).getLast? = some 't' := by
        rw [List.getLast?_append]
        rfl
      intro c hc
      rw [hend, Option.mem_some_iff] at hc
      rw [← hc]
      decide
    simp only [Declaration.start, Header.declaring, habstract, if_true]
    rw [htake, trimRight_append_blanks hspace.2, hlast, List.length_append, String.length_toList, hhidden,
      Nat.add_sub_cancel]

theorem source_split : source = (before ++ (head ++ '\x7b' :: (body ++ ['\x7d']))) ++ after := by
  rw [h.source_eq]
  simp only [List.append_assoc, List.cons_append, List.nil_append]

theorem mask_behind : (mask source).drop (before ++ (head ++ '\x7b' :: (body ++ ['\x7d']))).length = mask after := by
  have hmasked : mask head ++ '\x7b' :: (mask body ++ '\x7d' :: mask after) =
      (mask head ++ '\x7b' :: (mask body ++ ['\x7d'])) ++ mask after := by
    simp only [List.append_assoc, List.cons_append, List.nil_append]
  rw [List.length_append, ← List.drop_drop, h.masked_eq, hmasked]
  apply List.drop_left'
  simp only [List.length_append, List.length_cons, length_mask]

theorem text : (header.declaring before.length body).text source = head ++ '\x7b' :: (body ++ ['\x7d']) := by
  have hsplit := h.source_split
  rw [List.append_assoc] at hsplit
  rw [Declaration.text, h.start, h.closing]
  conv_lhs => rw [hsplit]
  apply slice_append rfl
  simp only [List.length_append, List.length_cons, List.length_nil]
  omega

theorem standsIn : (header.declaring before.length body).StandsIn source := by
  obtain ⟨lead, gap, hreads⟩ := h.exists_reads
  obtain ⟨hidden, hhidden, hmask⟩ := h.exists_hidden
  have hname : (String.ofList header.name).toList = header.name := String.toList_ofList
  have hhead := congrArg List.length hreads.text_eq
  simp only [length_mask, List.length_append] at hhead
  have hbody : (mask body).length = body.length := length_mask body
  have hopened : mask source = (hidden ++ mask head) ++ '\x7b' :: (mask body ++ '\x7d' :: mask after) := by
    rw [hmask, List.append_assoc]
  have hplace : (hidden ++ mask head).length = before.length + head.length := by
    rw [List.length_append, hhidden, length_mask]
  constructor
  case header =>
    refine ⟨gap, header.tail ++ '\x7b' :: (mask body ++ '\x7d' :: mask after), hreads.isGap, ?_, ?_⟩
    · simp only [Header.declaring, hname]
      rw [← List.drop_drop, h.masked_eq, hreads.text_eq, hreads.lead_eq, List.append_assoc, List.drop_left]
      simp only [List.append_assoc]
    · rw [h.opening]
      simp only [Header.declaring, hname, hreads.lead_eq, List.length_append]
      omega
  case lead =>
    rw [h.start]
    refine ⟨Nat.le_add_right _ _, ?_⟩
    have hslice : slice (mask source) before.length (before.length + header.lead) = lead := by
      rw [hmask, hreads.text_eq, List.append_assoc]
      exact slice_append hhidden (by rw [hreads.lead_eq, hhidden])
    simp only [Header.declaring, hslice]
    exact hreads.isLead
  case opens =>
    rw [h.opening, hopened, List.getElem?_append_right hplace.le, hplace, Nat.sub_self]
    rfl
  case closes =>
    rw [h.opening, h.closing, hopened, ← hplace, matchingBracket_append rfl, h.balanced.closingFrom (by decide),
      hbody, Option.map_some]
    congr 2
    omega
  case body_eq =>
    have hsource : source = (before ++ head) ++ '\x7b' :: (body ++ '\x7d' :: after) := by
      rw [h.source_eq, List.append_assoc]
    have hslice := slice_behind (before ++ head) '\x7b' body ('\x7d' :: after)
    rw [← hsource, List.length_append] at hslice
    rw [h.opening, h.closing, hslice]
    rfl
  case maskedBody_eq =>
    have hslice := slice_behind (hidden ++ mask head) '\x7b' (mask body) ('\x7d' :: mask after)
    rw [← hopened, hplace, hbody] at hslice
    rw [h.opening, h.closing, hslice]
    rfl
  case length_eq => exact hbody
  case balanced => exact h.balanced
  case masked => rfl

end DeclaresAt

/-! ### The run -/

/-- An opening brace of the masked source that is never closed. -/
def UnterminatedBody.StandsIn (source : List Char) (failure : UnterminatedBody) : Prop :=
  (mask source)[failure.offset]? = some '\x7b' ∧ matchingBracket (mask source) failure.offset = .ok none

/-- The declarations of a scan stand in a source one behind the other from a place on, and so does the brace at which
the scan stops. -/
structure Scan.LaidOut (source : List Char) (place : Nat) (found : Scan) : Prop where
  declared : ∀ declaration ∈ found.declarations, ∃ before head body after header,
    DeclaresAt source before head body after header ∧ declaration = header.declaring before.length body
  behind : ∀ declaration ∈ found.declarations, place ≤ declaration.offset
  ordered : found.declarations.Pairwise fun former latter => former.closing (mask source) < latter.offset
  unclosed : ∀ failure ∈ found.failure, failure.StandsIn source ∧ place ≤ failure.offset ∧
    ∀ declaration ∈ found.declarations, declaration.closing (mask source) < failure.offset

namespace Scan.LaidOut

variable {source : List Char} {place : Nat}

theorem ended : LaidOut source place ⟨[], none⟩ where
  declared _ hmem := absurd hmem List.not_mem_nil
  behind _ hmem := absurd hmem List.not_mem_nil
  ordered := .nil
  unclosed _ hmem := absurd hmem (Option.not_mem_none _)

theorem unterminated {failure : UnterminatedBody} (h : failure.StandsIn source) (hplace : place ≤ failure.offset) :
    LaidOut source place ⟨[], some failure⟩ where
  declared _ hmem := absurd hmem List.not_mem_nil
  behind _ hmem := absurd hmem List.not_mem_nil
  ordered := .nil
  unclosed other hmem := by
    rw [← Option.mem_some_iff.1 hmem]
    exact ⟨h, hplace, fun _ hmem => absurd hmem List.not_mem_nil⟩

theorem mono {later : Nat} {found : Scan} (h : LaidOut source later found) (hle : place ≤ later) :
    LaidOut source place found where
  declared := h.declared
  behind declaration hmem := hle.trans (h.behind declaration hmem)
  ordered := h.ordered
  unclosed failure hmem := by
    obtain ⟨hstands, hlater, hbehind⟩ := h.unclosed failure hmem
    exact ⟨hstands, hle.trans hlater, hbehind⟩

/-- A declaration in front of a scan that begins behind its closing brace. -/
theorem cons {before head body after : List Char} {header : Header}
    (hdeclares : DeclaresAt source before head body after header) (hplace : place ≤ before.length) {found : Scan}
    (h : LaidOut source (before.length + head.length + body.length + 2) found) :
    LaidOut source place ⟨header.declaring before.length body :: found.declarations, found.failure⟩ where
  declared := List.forall_mem_cons.2 ⟨⟨before, head, body, after, header, hdeclares, rfl⟩, h.declared⟩
  behind := by
    refine List.forall_mem_cons.2 ⟨hplace.trans (Nat.le_add_right _ _), fun declaration hmem => ?_⟩
    have := h.behind declaration hmem
    omega
  ordered := by
    refine List.pairwise_cons.2 ⟨fun declaration hmem => ?_, h.ordered⟩
    have := h.behind declaration hmem
    rw [hdeclares.closing]
    omega
  unclosed failure hmem := by
    obtain ⟨hstands, hlater, hbehind⟩ := h.unclosed failure hmem
    refine ⟨hstands, by omega, List.forall_mem_cons.2 ⟨?_, hbehind⟩⟩
    rw [hdeclares.closing]
    omega

end Scan.LaidOut

section Run

variable {passed source taken after : List Char} (hmask : (mask (passed ++ source)).drop passed.length = mask source)
include hmask

theorem drop_mask_append (hsource : source = taken ++ after) (htaken : (mask source).drop taken.length = mask after) :
    (mask ((passed ++ taken) ++ after)).drop (passed ++ taken).length = mask after := by
  rw [List.append_assoc, ← hsource, List.length_append, ← List.drop_drop, hmask, htaken]

theorem UnterminatedBody.standsIn_append {before : List Char}
    (hmasked : mask source = mask before ++ '\x7b' :: mask after)
    (hopen : closingFrom '\x7b' '\x7d' 1 0 (mask after) = none) (name : String) :
    UnterminatedBody.StandsIn (passed ++ source) ⟨name, passed.length + before.length⟩ := by
  have hlength : ((mask (passed ++ source)).take passed.length).length = passed.length := by
    rw [List.length_take, length_mask, List.length_append]
    omega
  have hwhole : mask (passed ++ source) =
      ((mask (passed ++ source)).take passed.length ++ mask before) ++ '\x7b' :: mask after := by
    rw [List.append_assoc, ← hmasked, ← hmask, List.take_append_drop]
  have hplace : passed.length + before.length =
      ((mask (passed ++ source)).take passed.length ++ mask before).length := by
    rw [List.length_append, hlength, length_mask]
  constructor
  · rw [hwhole, hplace, List.getElem?_append_right (Nat.le_refl _), Nat.sub_self]
    rfl
  · rw [hwhole, hplace, matchingBracket_append rfl, hopen, Option.map_none]

theorem DeclaresAt.append {before head body : List Char} {header : Header}
    (h : DeclaresAt source before head body after header) :
    DeclaresAt (passed ++ source) (passed ++ before) head body after header where
  source_eq := by rw [h.source_eq, List.append_assoc]
  masked_eq := by rw [List.length_append, ← List.drop_drop, hmask, h.masked_eq]
  alone_eq := h.alone_eq
  free := h.free
  last := h.last
  isDeclaration := h.isDeclaration
  balanced := h.balanced

end Run

/-- What a scan finds in the rest of a source is laid out in the whole, when the rest is masked as it is masked in the
whole. Each step leaves such a rest again. -/
theorem scanFrom_laidOut {passed source : List Char}
    (hmask : (mask (passed ++ source)).drop passed.length = mask source) :
    (scanFrom passed.length source (mask source)).LaidOut (passed ++ source) passed.length := by
  have hrest : ∀ taken after, source = taken ++ after → taken ≠ [] →
      (mask source).drop taken.length = mask after →
      (scanFrom (passed.length + taken.length) after (mask after)).LaidOut (passed ++ source)
        (passed.length + taken.length) := by
    intro taken after hsource hne htaken
    have hshort : after.length < source.length := by
      have := List.length_pos_iff.2 hne
      rw [hsource, List.length_append]
      omega
    have hlater := scanFrom_laidOut (drop_mask_append hmask hsource htaken)
    rwa [List.append_assoc, ← hsource, List.length_append] at hlater
  have hstep := scanStep source passed.length
  generalize scanFrom passed.length source (mask source) = found at hstep ⊢
  cases hstep with
  | ended => exact .ended
  | @passed before after terminator hsource hmasked =>
    have hlater := hrest (before ++ [terminator]) after (by rw [hsource, List.append_assoc]; rfl) (by simp)
      (by rw [hmasked, List.length_append, ← length_mask before, List.length_singleton, drop_succ_length_append])
    rw [List.length_append, List.length_singleton, ← Nat.add_assoc] at hlater
    exact hlater.mono (by omega)
  | unterminated _ hmasked hopen =>
    exact .unterminated (UnterminatedBody.standsIn_append hmask hmasked hopen _) (Nat.le_add_right _ _)
  | @declared before head body after header h =>
    have hlater := hrest _ after h.source_split (by simp) h.mask_behind
    have hplace : passed.length + (before ++ (head ++ '\x7b' :: (body ++ ['\x7d']))).length =
        (passed ++ before).length + head.length + body.length + 2 := by
      simp only [List.length_append, List.length_cons, List.length_nil]
      omega
    rw [hplace] at hlater
    rw [← List.length_append]
    exact .cons (h.append hmask) (by rw [List.length_append]; omega) hlater
termination_by source.length

/-- Everything that a scan finds stands in the source: the declarations one behind the other, and behind all of them
the brace at which the scan stops, if it does not come to the end. -/
structure Scan.PlacedIn (source : List Char) (found : Scan) : Prop where
  stands : ∀ declaration ∈ found.declarations, declaration.StandsIn source
  ordered : found.declarations.Pairwise fun former latter => former.closing (mask source) < latter.offset
  unclosed : ∀ failure ∈ found.failure, failure.StandsIn source ∧
    ∀ declaration ∈ found.declarations, declaration.closing (mask source) < failure.offset

theorem scan_laidOut (source : List Char) : (scan source (mask source)).LaidOut source 0 := by
  rw [scan_eq_scanFrom]
  exact @scanFrom_laidOut [] source rfl

/-- Every scan records what stands in the source where it says, also a scan that fails. -/
theorem scan_placedIn (source : List Char) : (scan source (mask source)).PlacedIn source := by
  have hlaid := scan_laidOut source
  constructor
  case stands =>
    intro declaration hmem
    obtain ⟨before, head, body, after, header, hdeclares, rfl⟩ := hlaid.declared declaration hmem
    exact hdeclares.standsIn
  case ordered => exact hlaid.ordered
  case unclosed =>
    intro failure hmem
    obtain ⟨hstands, -, hbehind⟩ := hlaid.unclosed failure hmem
    exact ⟨hstands, hbehind⟩

end ContractMigration.Solidity
