import ConfigScript.Proofs.Syntax.Gaps
import ConfigScript.Syntax.Script

/-!
# Code, strings and comments

One scan over a text tells its strings and comments from its code, one character at a time, and
which brackets of the code are still open. It is told from the text alone; the scans of spacing and
the search for the end of a broken statement are measured by it.
-/

namespace ConfigScript

/-- What a place in a text belongs to. Both marks of a block comment have two characters, and so has
the one of a line comment: behind the first of them stands a region of its own. -/
inductive Region where
  | code
  | slash
  | string
  | escape
  | lineComment
  | blockComment
  | star
deriving DecidableEq, Repr

namespace Region

def after : Region → Char → Region
  | .code, c => if c = '"' then .string else if c = '/' then .slash else .code
  | .slash, c =>
    if c = '/' then .lineComment else if c = '*' then .blockComment
    else if c = '"' then .string else .code
  | .string, c => if c = '\\' then .escape else if c = '"' ∨ c = '\n' then .code else .string
  | .escape, _ => .string
  | .lineComment, c => if c = '\n' ∨ c = '\r' then .code else .lineComment
  | .blockComment, c => if c = '*' then .star else .blockComment
  | .star, c => if c = '/' then .code else if c = '*' then .star else .blockComment

/-- Whether brackets count in a region. -/
def isCode : Region → Bool
  | .code | .slash => true
  | _ => false

def isBlock : Region → Bool
  | .blockComment | .star => true
  | _ => false

def isComment : Region → Bool
  | .lineComment | .blockComment | .star => true
  | _ => false

/-- What stands in the comments of a text, their opening marks left out. -/
def comments : Region → List Char → List Char
  | _, [] => []
  | region, c :: cs =>
    if region.isComment then c :: comments (region.after c) cs else comments (region.after c) cs

end Region

/-- An opening bracket and the one that closes it. -/
def BracketPair (opener closer : Char) : Prop :=
  (opener = '(' ∧ closer = ')') ∨ opener = '\x7b' ∧ closer = '\x7d'

/-- The open brackets behind a character of code, innermost first, unless it closes another one than
the innermost. -/
def bracketsAfter (opened : List Char) (c : Char) : Option (List Char) :=
  if c = '(' ∨ c = '\x7b' then some (c :: opened)
  else if c = ')' then if opened.head? = some '(' then some opened.tail else none
  else if c = '\x7d' then if opened.head? = some '\x7b' then some opened.tail else none
  else some opened

/-- Where a scan over a text stands. -/
structure Scan where
  region : Region
  opened : List Char
deriving DecidableEq, Repr

namespace Scan

def start : Scan :=
  ⟨.code, []⟩

def after (scan : Scan) (c : Char) : Option Scan :=
  if scan.region.isCode then
    (bracketsAfter scan.opened c).map fun opened => ⟨scan.region.after c, opened⟩
  else some ⟨scan.region.after c, scan.opened⟩

/-- The scan behind a text, unless a bracket is closed there that is not open. -/
def through (scan : Scan) (text : List Char) : Option Scan :=
  text.foldlM after scan

/-- The scan comes to the end of a line with all brackets closed and no block comment open. No
quotes, brackets and semicolons stand in the comments of the line. -/
structure Settles (scan : Scan) (line : List Char) : Prop where
  feedless : '\n' ∉ line
  closed : ∃ region : Region, scan.through line = some ⟨region, []⟩ ∧ region.isBlock = false
  bare : ∀ c ∈ scan.region.comments line, c ∉ ['"', '(', ')', '\x7b', '\x7d', ';']

variable {scan stop : Scan} {text others line : List Char} {c : Char} {opened more : List Char}
  {region : Region}

theorem through_cons :
    scan.through (c :: text) = (scan.after c).bind fun next => next.through text :=
  rfl

theorem through_append :
    scan.through (text ++ others) = (scan.through text).bind fun next => next.through others :=
  List.foldlM_append

theorem bracketsAfter_plain (h : c ∉ ['(', ')', '\x7b', '\x7d']) :
    bracketsAfter opened c = some opened := by
  simp only [List.mem_cons, List.not_mem_nil, or_false, not_or] at h
  simp [bracketsAfter, h]

/-- Characters of code that are neither brackets nor quotes nor slashes leave a scan as it is. -/
theorem after_plain (h : c ∉ ['(', ')', '\x7b', '\x7d', '"', '/']) :
    (⟨.code, opened⟩ : Scan).after c = some ⟨.code, opened⟩ := by
  simp only [List.mem_cons, List.not_mem_nil, or_false, not_or] at h
  simp [after, Region.isCode, Region.after, bracketsAfter_plain, h]

theorem through_plain (h : ∀ c ∈ text, c ∉ ['(', ')', '\x7b', '\x7d', '"', '/']) :
    (⟨.code, opened⟩ : Scan).through text = some ⟨.code, opened⟩ := by
  induction text with
  | nil => rfl
  | cons c text ih =>
    obtain ⟨hfirst, hrest⟩ := List.forall_mem_cons.mp h
    rw [through_cons, after_plain hfirst]
    exact ih hrest

/-- A character opens a bracket, closes the innermost one, or is no bracket. -/
theorem bracketsAfter_cases {next : List Char} (h : bracketsAfter opened c = some next) :
    (c = '(' ∨ c = '\x7b') ∧ next = c :: opened ∨
      (∃ opener, BracketPair opener c ∧ opened = opener :: next) ∨
        c ∉ ['(', ')', '\x7b', '\x7d'] ∧ next = opened := by
  unfold bracketsAfter at h
  split_ifs at h with hopen hparen hhead hbrace hhead <;> obtain rfl := Option.some.inj h
  · exact .inl ⟨hopen, rfl⟩
  · exact .inr (.inl ⟨'(', .inl ⟨rfl, hparen⟩, (List.cons_head?_tail hhead).symm⟩)
  · exact .inr (.inl ⟨'\x7b', .inr ⟨rfl, hbrace⟩, (List.cons_head?_tail hhead).symm⟩)
  · rw [not_or] at hopen
    exact .inr (.inr ⟨by simp [hopen, hparen, hbrace], rfl⟩)

theorem bracketsAfter_lift {next : List Char} (h : bracketsAfter opened c = some next) :
    bracketsAfter (opened ++ more) c = some (next ++ more) := by
  rcases bracketsAfter_cases h with ⟨hopen, rfl⟩ | ⟨opener, hpair, rfl⟩ | ⟨hplain, rfl⟩
  · rw [bracketsAfter, if_pos hopen]
    rfl
  · rcases hpair with ⟨rfl, rfl⟩ | ⟨rfl, rfl⟩ <;> rfl
  · exact bracketsAfter_plain hplain

theorem after_lift (h : (⟨region, opened⟩ : Scan).after c = some stop) :
    (⟨region, opened ++ more⟩ : Scan).after c = some ⟨stop.region, stop.opened ++ more⟩ := by
  unfold after at h ⊢
  dsimp only at h ⊢
  split at h
  · rename_i hcode
    obtain ⟨next, hnext, rfl⟩ := Option.map_eq_some_iff.mp h
    rw [if_pos hcode, bracketsAfter_lift hnext]
    rfl
  · rename_i hcode
    obtain rfl := Option.some.inj h
    rw [if_neg hcode]

/-- Brackets that are open in front of a text stay open under all that the text opens. -/
theorem through_lift (h : (⟨region, opened⟩ : Scan).through text = some stop) :
    (⟨region, opened ++ more⟩ : Scan).through text = some ⟨stop.region, stop.opened ++ more⟩ := by
  induction text generalizing region opened with
  | nil =>
    obtain rfl := Option.some.inj h
    rfl
  | cons c text ih =>
    obtain ⟨next, hnext, h⟩ := Option.bind_eq_some_iff.mp h
    rw [through_cons, after_lift hnext]
    exact ih h

theorem Settles.nil (hregion : region.isBlock = false) :
    (⟨region, []⟩ : Scan).Settles [] :=
  ⟨by simp, ⟨region, rfl, hregion⟩, by simp [Region.comments]⟩

/-- What is left of a line settles behind each of its characters. -/
theorem Settles.tail (h : scan.Settles (c :: line)) :
    ∃ next, scan.after c = some next ∧ next.Settles line ∧ c ≠ '\n' ∧
      (scan.region.isComment = true → c ∉ ['"', '(', ')', '\x7b', '\x7d', ';']) := by
  obtain ⟨hfeed, hrest⟩ := not_or.mp (fun hmem => h.feedless (List.mem_cons.mpr hmem))
  obtain ⟨region, hclosed, hblock⟩ := h.closed
  obtain ⟨next, hnext, hclosed⟩ := Option.bind_eq_some_iff.mp hclosed
  have hregion : next.region = scan.region.after c := by
    unfold after at hnext
    split at hnext
    · obtain ⟨opened, -, rfl⟩ := Option.map_eq_some_iff.mp hnext
      rfl
    · obtain rfl := Option.some.inj hnext
      rfl
  have hbare := h.bare
  rw [Region.comments] at hbare
  refine ⟨next, hnext, ⟨hrest, ⟨region, hclosed, hblock⟩, ?_⟩, Ne.symm hfeed, fun hcomment => ?_⟩
  · rw [hregion]
    split at hbare
    · exact fun d hd => hbare d (List.mem_cons_of_mem _ hd)
    · exact hbare
  · rw [if_pos hcomment] at hbare
    exact hbare c List.mem_cons_self

theorem Settles.later (h : scan.Settles (text ++ line)) :
    ∃ next, scan.through text = some next ∧ next.Settles line := by
  induction text generalizing scan with
  | nil => exact ⟨scan, rfl, h⟩
  | cons c text ih =>
    obtain ⟨next, hnext, hrest, -⟩ := h.tail
    obtain ⟨last, hlast, hline⟩ := ih hrest
    refine ⟨last, ?_, hline⟩
    rw [through_cons, hnext]
    exact hlast

/-- The first character of a line, when it is not the line feed behind it. -/
theorem Settles.peel {next : Region} {later cs : List Char}
    (h : (⟨region, opened⟩ : Scan).Settles line) (hcs : line ++ '\n' :: later = c :: cs)
    (hfeed : c ≠ '\n') (hafter : (⟨region, opened⟩ : Scan).after c = some ⟨next, opened⟩) :
    ∃ rest, line = c :: rest ∧ rest ++ '\n' :: later = cs ∧
      (⟨next, opened⟩ : Scan).Settles rest := by
  cases line with
  | nil => exact absurd (List.cons.inj hcs).1.symm hfeed
  | cons d line =>
    obtain ⟨rfl, hrest⟩ := List.cons.inj hcs
    obtain ⟨behind, hbehind, hsettles, -⟩ := h.tail
    obtain rfl := Option.some.inj (hafter.symm.trans hbehind)
    exact ⟨line, rfl, hrest, hsettles⟩

theorem Settles.eq_nil {later cs : List Char} (h : scan.Settles line)
    (hcs : line ++ '\n' :: later = '\n' :: cs) : line = [] ∧ later = cs := by
  cases line with
  | nil => exact ⟨rfl, (List.cons.inj hcs).2⟩
  | cons d line =>
    obtain ⟨rfl, -⟩ := List.cons.inj hcs
    exact absurd List.mem_cons_self h.feedless

/-- In code a line settles as it does in a comment that ends with the line in front of it. -/
theorem Settles.of_lineComment (h : (⟨.lineComment, opened⟩ : Scan).Settles line)
    (hbreak : BreaksLine (line ++ ['\n'])) : (⟨.code, opened⟩ : Scan).Settles line := by
  cases line with
  | nil =>
    obtain ⟨region, hclosed, -⟩ := h.closed
    obtain ⟨-, rfl⟩ := Scan.mk.inj (Option.some.inj hclosed)
    exact .nil rfl
  | cons c line =>
    obtain ⟨next, hnext, hrest, hfeed, -⟩ := h.tail
    obtain rfl : c = '\r' := (hbreak c rfl).resolve_left hfeed
    obtain rfl := Option.some.inj hnext
    have hreturn : (⟨.code, opened⟩ : Scan).after '\r' = some ⟨.code, opened⟩ := rfl
    refine ⟨h.feedless, ?_, hrest.bare⟩
    rw [through_cons, hreturn]
    exact hrest.closed

end Scan

namespace Spacing

variable {spacing : Spacing} {mode : Mode} {region : Region} {cs line later : List Char}
  {position : Position} {after : Cursor}

/-- The region of a scan over a text in which spacing is passed over. -/
inductive Mode.In : Mode → Region → List Char → Prop where
  | between {cs : List Char} : In .between .code cs
  | lineComment {cs : List Char} : In .lineComment .lineComment cs
  | blockComment {opening : Cursor} {cs : List Char} :
    In (.blockComment opening) .blockComment cs
  | star {opening : Cursor} {cs : List Char} (h : cs.head? ≠ some '/') :
    In (.blockComment opening) .star cs

/-- Behind a character of a block comment the comment goes on. -/
theorem in_blockComment {opening : Cursor} {c : Char}
    (hmode : Mode.In (.blockComment opening) region (c :: cs))
    (hopen : ∀ rest, c = '*' → cs = '/' :: rest → False) :
    Mode.In (.blockComment opening) (region.after c) cs := by
  have hstar : c = '*' → cs.head? ≠ some '/' := by
    intro hc hslash
    cases cs with
    | nil => cases hslash
    | cons d cs =>
      obtain rfl : d = '/' := by simpa using hslash
      exact hopen cs hc rfl
  cases hmode with
  | blockComment =>
    rw [Region.after]
    split
    · rename_i hc
      exact .star (hstar hc)
    · exact .blockComment
  | star hslash =>
    have hne : c ≠ '/' := by simpa using hslash
    rw [Region.after, if_neg hne]
    split
    · rename_i hc
      exact .star (hstar hc)
    · exact .blockComment

theorem after_skips {opened : List Char} {c : Char} (h : spacing.skips c = true) :
    (⟨.code, opened⟩ : Scan).after c = some ⟨.code, opened⟩ := by
  refine Scan.after_plain fun hmem => ?_
  have hclass : ∀ d ∈ ['(', ')', '\x7b', '\x7d', '"', '/'], spacing.skips d = false := by
    cases spacing <;> exact List.all_iff_forall_prop.mp (by decide)
  rw [hclass c hmem] at h
  cases h

theorem after_comment {opened : List Char} {c : Char} (h : region.isComment = true) :
    (⟨region, opened⟩ : Scan).after c = some ⟨region.after c, opened⟩ := by
  cases region <;> first | rfl | cases h

/-- From a region only spacing stands between two cursors: no brackets are met, and at the end no
comment goes on unless it is one to the end of the line and the line ends there. -/
def Passes (region : Region) (cursor after : Cursor) : Prop :=
  ∃ text stop, cursor.Reads text after ∧
    (stop = .code ∨ stop = .lineComment ∧ BreaksLine after.rest) ∧
    ∀ opened, (⟨region, opened⟩ : Scan).through text = some ⟨stop, opened⟩

theorem Passes.refl (h : region = .code ∨ region = .lineComment ∧ BreaksLine after.rest) :
    Passes region after after :=
  ⟨[], region, .refl, h, fun _ => rfl⟩

theorem Passes.cons {c : Char} {next : Region} (h : Passes next ⟨cs, position.after c⟩ after)
    (hafter : ∀ opened, (⟨region, opened⟩ : Scan).after c = some ⟨next, opened⟩) :
    Passes region ⟨c :: cs, position⟩ after := by
  obtain ⟨text, stop, hreads, hstop, hthrough⟩ := h
  refine ⟨c :: text, stop, ⟨congrArg (c :: ·) hreads.rest, hreads.position⟩, hstop,
    fun opened => ?_⟩
  rw [Scan.through_cons, hafter]
  exact hthrough opened

theorem passes_of_skipFrom (hmode : mode.In region cs)
    (h : skipFrom spacing mode cs position = .ok after) : Passes region ⟨cs, position⟩ after := by
  fun_induction skipFrom spacing mode cs position generalizing region with
  | case1 cs position ih =>
    cases hmode
    exact ((ih .lineComment h).cons fun _ => rfl).cons fun _ => rfl
  | case2 cs position inside =>
    rename_i ih
    cases hmode
    exact ((ih .blockComment h).cons fun _ => rfl).cons fun _ => rfl
  | case3 c cs position _ _ hskips ih =>
    cases hmode
    exact (ih .between h).cons fun _ => after_skips hskips
  | case4 c cs position =>
    cases hmode
    cases h
    exact .refl (.inl rfl)
  | case5 c cs position hfeed hskips ih =>
    cases hmode
    refine (ih .between h).cons fun _ => ?_
    rw [after_comment rfl, Region.after, if_pos hfeed]
  | case6 c cs position hfeed =>
    cases hmode
    cases h
    exact .refl (.inr ⟨rfl, by simpa [BreaksLine] using hfeed⟩)
  | case7 c cs position hfeed ih =>
    cases hmode
    refine (ih .lineComment h).cons fun _ => ?_
    rw [after_comment rfl, Region.after, if_neg hfeed]
  | case8 opening cs position ih =>
    cases hmode with
    | blockComment => exact ((ih .between h).cons fun _ => rfl).cons fun _ => rfl
    | star => exact ((ih .between h).cons fun _ => rfl).cons fun _ => rfl
  | case9 opening c cs position hopen ih =>
    have hcomment : region.isComment = true := by
      cases hmode <;> rfl
    exact (ih (in_blockComment hmode hopen) h).cons fun _ => after_comment hcomment
  | case10 => cases h
  | case11 mode position hopen =>
    cases h
    cases hmode with
    | between => exact .refl (.inl rfl)
    | lineComment => exact .refl (.inr ⟨rfl, by simp [BreaksLine]⟩)
    | blockComment => exact (hopen _ rfl).elim
    | star => exact (hopen _ rfl).elim

/-- A gap leaves a scan in code. -/
theorem Gap.through {gap opened : List Char} (hgap : spacing.Gap gap) :
    (⟨.code, opened⟩ : Scan).through gap = some ⟨.code, opened⟩ := by
  have hletter : Solid ['a'] := solid_cons (by decide)
  have hskip : spacing.skip ⟨gap ++ ['a'], .origin⟩ = .ok ⟨['a'], _⟩ := hgap.skip hletter
  obtain ⟨text, stop, hreads, hstop, hthrough⟩ := passes_of_skipFrom .between hskip
  obtain rfl : gap = text := List.append_cancel_right hreads.rest
  obtain rfl := hstop.resolve_right fun h => hletter.not_breaksLine h.2
  exact hthrough opened

/-- A gap at the end of a line leaves a scan in code or in a comment to the end of the line. -/
theorem LineGap.through {gap : List Char} (hgap : spacing.LineGap gap) :
    ∃ stop, (stop = .code ∨ stop = .lineComment) ∧
      ∀ opened, (⟨.code, opened⟩ : Scan).through gap = some ⟨stop, opened⟩ := by
  have hskip := hgap [] .origin (by simp [BreaksLine])
  rw [skip_nil] at hskip
  obtain ⟨text, stop, hreads, hstop, hthrough⟩ := passes_of_skipFrom .between hskip
  obtain rfl : gap = text := List.append_cancel_right hreads.rest
  exact ⟨stop, hstop.imp_right And.left, hthrough⟩

/-- A scan of spacing stops within a line, or goes on behind the line feed. -/
def Lands (spacing : Spacing) (line later : List Char) (position : Position)
    (result : Except Failure Cursor) : Prop :=
  (∃ front back, line = front ++ back ∧
      result = .ok ⟨back ++ '\n' :: later, position.afterAll front⟩) ∨
    spacing.skips '\n' = true ∧
      result = spacing.skip ⟨later, position.afterAll (line ++ ['\n'])⟩

section Lands

variable {result : Except Failure Cursor} {c : Char}

theorem lands_here : spacing.Lands line later position (.ok ⟨line ++ '\n' :: later, position⟩) :=
  .inl ⟨[], line, rfl, rfl⟩

theorem Lands.cons (h : spacing.Lands line later (position.after c) result) :
    spacing.Lands (c :: line) later position result := by
  rcases h with ⟨front, back, rfl, hresult⟩ | ⟨hskips, hresult⟩
  · exact .inl ⟨c :: front, back, rfl, hresult⟩
  · exact .inr ⟨hskips, hresult⟩

/-- Spacing that begins in a line that settles ends in it or behind it. -/
theorem lands_skipFrom {opened : List Char} (hmode : mode.In region (line ++ '\n' :: later))
    (hline : (⟨region, opened⟩ : Scan).Settles line) :
    spacing.Lands line later position (skipFrom spacing mode (line ++ '\n' :: later) position) := by
  generalize hcs : line ++ '\n' :: later = cs at hmode ⊢
  fun_induction skipFrom spacing mode cs position generalizing line region with
  | case1 cs position ih =>
    cases hmode
    obtain ⟨line, rfl, hcs, hline⟩ := hline.peel hcs (by decide) rfl
    obtain ⟨line, rfl, hcs, hline⟩ := hline.peel hcs (by decide) rfl
    exact (ih hline hcs .lineComment).cons.cons
  | case2 cs position inside =>
    rename_i ih
    cases hmode
    obtain ⟨line, rfl, hcs, hline⟩ := hline.peel hcs (by decide) rfl
    obtain ⟨line, rfl, hcs, hline⟩ := hline.peel hcs (by decide) rfl
    exact (ih hline hcs .blockComment).cons.cons
  | case3 c cs position _ _ hskips ih =>
    cases hmode
    by_cases hfeed : c = '\n'
    · subst hfeed
      obtain ⟨rfl, rfl⟩ := hline.eq_nil hcs
      exact .inr ⟨hskips, rfl⟩
    · obtain ⟨line, rfl, hcs, hline⟩ := hline.peel hcs hfeed (after_skips hskips)
      exact (ih hline hcs .between).cons
  | case4 c cs position => exact hcs ▸ lands_here
  | case5 c cs position hbreak hskips ih =>
    cases hmode
    by_cases hfeed : c = '\n'
    · subst hfeed
      obtain ⟨rfl, rfl⟩ := hline.eq_nil hcs
      exact .inr ⟨hskips, rfl⟩
    · have hafter : (⟨.lineComment, opened⟩ : Scan).after c = some ⟨.code, opened⟩ := by
        rw [after_comment rfl, Region.after, if_pos hbreak]
      obtain ⟨line, rfl, hcs, hline⟩ := hline.peel hcs hfeed hafter
      exact (ih hline hcs .between).cons
  | case6 c cs position hfeed => exact hcs ▸ lands_here
  | case7 c cs position hfeed ih =>
    cases hmode
    have hafter : (⟨.lineComment, opened⟩ : Scan).after c = some ⟨.lineComment, opened⟩ := by
      rw [after_comment rfl, Region.after, if_neg hfeed]
    obtain ⟨line, rfl, hcs, hline⟩ :=
      hline.peel hcs (fun hc => hfeed (.inl hc)) hafter
    exact (ih hline hcs .lineComment).cons
  | case8 opening cs position ih =>
    have hafter : (⟨region, opened⟩ : Scan).after '*' = some ⟨.star, opened⟩ := by
      cases hmode <;> rfl
    obtain ⟨line, rfl, hcs, hline⟩ := hline.peel hcs (by decide) hafter
    obtain ⟨line, rfl, hcs, hline⟩ := hline.peel hcs (by decide) rfl
    exact (ih hline hcs .between).cons.cons
  | case9 opening c cs position hopen ih =>
    have hblock : region.isBlock = true := by
      cases hmode <;> rfl
    have hcomment : region.isComment = true := by
      cases hmode <;> rfl
    by_cases hfeed : c = '\n'
    · -- No block comment is open at the end of the line.
      subst hfeed
      obtain ⟨rfl, rfl⟩ := hline.eq_nil hcs
      obtain ⟨stop, hstop, hclosed⟩ := hline.closed
      obtain rfl : region = stop := congrArg Scan.region (Option.some.inj hstop)
      rw [hblock] at hclosed
      cases hclosed
    · obtain ⟨line, rfl, hcs, hline⟩ := hline.peel hcs hfeed (after_comment hcomment)
      exact (ih hline hcs (in_blockComment hmode hopen)).cons
  | case10 => simp at hcs
  | case11 mode position hopen => simp at hcs

end Lands

end Spacing

namespace Parser

variable {scan next : Scan} {line later cs : List Char} {c : Char}

/-- How the search for the end of a broken statement sees a region: it knows no comments. -/
def quotingOf : Region → Quoting
  | .string => .inside
  | .escape => .escaped
  | _ => .outside

theorem quotingOf_after {region : Region} (hcode : region.isCode = true) :
    quotingOf (region.after c) = if c = '"' then .inside else .outside := by
  cases region with
  | code =>
    rw [Region.after]
    split_ifs <;> rfl
  | slash =>
    rw [Region.after]
    split_ifs with hslash hstar hquote
    · subst hslash; contradiction
    all_goals (first | rfl | (subst_vars; contradiction))
  | _ => cases hcode

/-- The search keeps the brackets of code, and stops at a semicolon outside of them. -/
theorem brokenLength_code {region : Region} {opened behind : List Char}
    (hcode : region.isCode = true)
    (hnext : bracketsAfter opened c = some behind) (hfeed : c ≠ '\n') :
    brokenLength .outside opened (c :: cs) =
        1 + brokenLength (quotingOf (region.after c)) behind cs ∨
      c = ';' ∧ opened = [] ∧ brokenLength .outside opened (c :: cs) = 1 := by
  rw [quotingOf_after hcode, brokenLength]
  rcases Scan.bracketsAfter_cases hnext with ⟨rfl | rfl, rfl⟩ | ⟨opener, hpair, rfl⟩ | ⟨hplain, rfl⟩
  · exact .inl rfl
  · exact .inl rfl
  · rcases hpair with ⟨rfl, rfl⟩ | ⟨rfl, rfl⟩ <;> exact .inl rfl
  · simp only [List.mem_cons, List.not_mem_nil, or_false, not_or] at hplain
    obtain ⟨hopen, hclose, hbrace, hclosing⟩ := hplain
    by_cases hquote : c = '"'
    · rw [if_pos hquote, if_pos hquote]
      exact .inl rfl
    rw [if_neg hquote, if_neg hquote, if_neg (not_or.mpr ⟨hopen, hbrace⟩), if_neg hclose,
      if_neg hclosing]
    split
    · rename_i hend
      exact .inr ⟨hend.1.resolve_left hfeed, hend.2, rfl⟩
    · exact .inl rfl

theorem brokenLength_comment {opened : List Char}
    (hbare : c ∉ ['"', '(', ')', '\x7b', '\x7d', ';']) (hfeed : c ≠ '\n') :
    brokenLength .outside opened (c :: cs) = 1 + brokenLength .outside opened cs := by
  simp only [List.mem_cons, List.not_mem_nil, or_false, not_or] at hbare
  simp [brokenLength, hbare, hfeed]

theorem brokenLength_step (hnext : scan.after c = some next) (hfeed : c ≠ '\n')
    (hbare : scan.region.isComment = true → c ∉ ['"', '(', ')', '\x7b', '\x7d', ';']) :
    brokenLength (quotingOf scan.region) scan.opened (c :: cs) =
        1 + brokenLength (quotingOf next.region) next.opened cs ∨
      next = .start ∧ brokenLength (quotingOf scan.region) scan.opened (c :: cs) = 1 := by
  obtain ⟨region, opened⟩ := scan
  cases hcode : region.isCode with
  | true =>
    have houtside : quotingOf region = .outside := by
      cases region <;> first | rfl | cases hcode
    rw [Scan.after, if_pos hcode] at hnext
    obtain ⟨behind, hbehind, rfl⟩ := Option.map_eq_some_iff.mp hnext
    rw [houtside]
    refine (brokenLength_code hcode hbehind hfeed).imp_right ?_
    rintro ⟨rfl, hopened, hlength⟩
    dsimp only at hopened
    subst hopened
    obtain rfl := Option.some.inj hbehind
    refine ⟨?_, hlength⟩
    cases region <;> first | rfl | cases hcode
  | false =>
    rw [Scan.after, if_neg (by simp [hcode])] at hnext
    obtain rfl := Option.some.inj hnext
    refine .inl ?_
    cases hcomment : region.isComment with
    | true =>
      have houtside : quotingOf region = .outside ∧ quotingOf (region.after c) = .outside := by
        cases region <;> first
          | refine ⟨rfl, ?_⟩
            rw [Region.after]
            split_ifs <;> rfl
          | cases hcomment
      rw [houtside.1, houtside.2, brokenLength_comment (hbare hcomment) hfeed]
    | false =>
      cases region with
      | string =>
        dsimp only [quotingOf, Region.after]
        rw [brokenLength, if_neg (fun h => hfeed h.1), Quoting.afterInside]
        · split_ifs <;> first | rfl | contradiction
        · simp
      | escape =>
        dsimp only [quotingOf, Region.after]
        rw [brokenLength, if_neg (fun h => hfeed h.1), Quoting.afterInside, if_pos rfl]
        simp
      | code | slash => cases hcode
      | lineComment | blockComment | star => cases hcomment

/-- The search over a line that settles ends behind the line feed, or behind a semicolon at which
the rest of the line settles. -/
theorem brokenLength_line (hline : scan.Settles line) :
    brokenLength (quotingOf scan.region) scan.opened (line ++ '\n' :: later) = line.length + 1 ∨
      ∃ front back, line = front ++ back ∧ Scan.start.Settles back ∧
        brokenLength (quotingOf scan.region) scan.opened (line ++ '\n' :: later) =
          front.length := by
  induction line generalizing scan with
  | nil =>
    obtain ⟨region, hclosed, -⟩ := hline.closed
    obtain rfl := Option.some.inj hclosed
    refine .inl ?_
    cases region <;> simp [brokenLength, quotingOf]
  | cons c line ih =>
    obtain ⟨next, hnext, hsettles, hfeed, hbare⟩ := hline.tail
    rw [List.cons_append]
    rcases @brokenLength_step _ _ (line ++ '\n' :: later) _ hnext hfeed hbare with
      hlength | ⟨rfl, hlength⟩
    · rw [hlength]
      rcases ih hsettles with hend | ⟨front, back, rfl, hback, hstop⟩
      · exact .inl (by rw [hend, List.length_cons]; omega)
      · exact .inr ⟨c :: front, back, rfl, hback, by rw [hstop, List.length_cons]; omega⟩
    · exact .inr ⟨[c], line, rfl, hsettles, hlength⟩

end Parser

end ConfigScript
