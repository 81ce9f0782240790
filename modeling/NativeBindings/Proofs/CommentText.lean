import NativeBindings.Proofs.LocalRendering

/-!
# The text of comments

A comment is text that the header brings along, and it is written into code. Each of its lines
stands behind the marks of a documentation comment and has no line end in it, so it cannot leave
the comment; in XML it has no angle brackets of its own, so it cannot pass for a mark. Hence
whoever reads a summary knows for each character whether it is part of a mark or of the text, and
gets back the lines of all comments.

Reading goes the other way round: the marks are cut off, the entities become characters again, and
the lines are cut behind every line that closes a paragraph.
-/

namespace NativeBindings

open CSharp Render

/-! ## Characters in XML -/

/-- A text in XML: there are no angle brackets in it, and every ampersand begins an entity. -/
inductive Escaped : List Char → Prop where
  | nil : Escaped []
  | plain {c : Char} {cs : List Char} (hamp : c ≠ '&') (hless : c ≠ '<') (hgreater : c ≠ '>')
      (h : Escaped cs) : Escaped (c :: cs)
  | entity {e : String} {cs : List Char} (he : e ∈ ["&amp;", "&lt;", "&gt;"]) (h : Escaped cs) :
      Escaped (e.toList ++ cs)

/-- The characters that a text in XML stands for. -/
def unescape : List Char → List Char
  | '&' :: 'a' :: 'm' :: 'p' :: ';' :: rest => '&' :: unescape rest
  | '&' :: 'l' :: 't' :: ';' :: rest => '<' :: unescape rest
  | '&' :: 'g' :: 't' :: ';' :: rest => '>' :: unescape rest
  | c :: rest => c :: unescape rest
  | [] => []

/-- Puts a text in the place of a character. -/
def replaced (c : Char) (text : String) (x : Char) : List Char := if x = c then text.toList else [x]

/-- Writing in XML is replacing three characters, one after the other. The ampersand has to come
first, or it would be replaced in the entities as well. -/
theorem flatMap_xmlChar (cs : List Char) : cs.flatMap xmlChar =
    ((cs.flatMap (replaced '&' "&amp;")).flatMap (replaced '<' "&lt;")).flatMap
      (replaced '>' "&gt;") := by
  have hchar : ∀ c, xmlChar c = (replaced '&' "&amp;" c).flatMap fun x =>
      (replaced '<' "&lt;" x).flatMap (replaced '>' "&gt;") := by
    intro c
    by_cases hamp : c = '&'
    · subst hamp
      rfl
    by_cases hless : c = '<'
    · subst hless
      rfl
    have hreplaced : replaced '&' "&amp;" c = [c] ∧ replaced '<' "&lt;" c = [c] :=
      ⟨if_neg hamp, if_neg hless⟩
    rw [hreplaced.1, List.flatMap_singleton, hreplaced.2, List.flatMap_singleton, xmlChar,
      if_neg hamp, if_neg hless]
    rfl
  rw [List.flatMap_assoc, List.flatMap_assoc, funext hchar]

/-- A character is written in one of four ways. -/
theorem xmlChar_cases {motive : Char → List Char → Prop} (amp : motive '&' "&amp;".toList)
    (less : motive '<' "&lt;".toList) (greater : motive '>' "&gt;".toList)
    (plain : ∀ c, c ≠ '&' → c ≠ '<' → c ≠ '>' → motive c [c]) (c : Char) :
    motive c (xmlChar c) := by
  unfold xmlChar
  split_ifs with hamp hless hgreater
  · exact hamp ▸ amp
  · exact hless ▸ less
  · exact hgreater ▸ greater
  · exact plain c hamp hless hgreater

theorem Escaped.xmlChar_append {cs : List Char} (h : Escaped cs) (c : Char) :
    Escaped (xmlChar c ++ cs) := by
  induction c using xmlChar_cases with
  | amp => exact .entity (by simp) h
  | less => exact .entity (by simp) h
  | greater => exact .entity (by simp) h
  | plain c hamp hless hgreater => exact .plain hamp hless hgreater h

theorem escaped_escapeXml (s : String) : Escaped (escapeXml s).toList := by
  rw [escapeXml, String.toList_ofList]
  induction s.toList with
  | nil => exact .nil
  | cons c rest ih => exact ih.xmlChar_append c

theorem Escaped.less_notMem {cs : List Char} (h : Escaped cs) : '<' ∉ cs := by
  induction h with
  | nil => exact List.not_mem_nil
  | plain _ hless _ _ ih => exact List.not_mem_cons_of_ne_of_not_mem hless.symm ih
  | entity he _ ih =>
      have hentity : ∀ e ∈ ["&amp;", "&lt;", "&gt;"], '<' ∉ e.toList := by decide
      exact List.not_mem_append (hentity _ he) ih

theorem unescape_xmlChar_append (c : Char) (cs : List Char) :
    unescape (xmlChar c ++ cs) = c :: unescape cs := by
  induction c using xmlChar_cases with
  | amp => rfl
  | less => rfl
  | greater => rfl
  | plain c hamp _ _ =>
      rw [List.singleton_append, unescape]
      all_goals exact fun _ h => absurd h hamp

/-- **Text in XML stands for itself.** -/
theorem unescape_escapeXml (s : String) : unescape (escapeXml s).toList = s.toList := by
  rw [escapeXml, String.toList_ofList]
  induction s.toList with
  | nil => rfl
  | cons c rest ih => rw [List.flatMap_cons, unescape_xmlChar_append, ih]

/-! ## Line ends -/

/-- The characters that end a line in code. -/
def lineTerminators : List Char := ['\n', '\r', '\u0085', '\u2028', '\u2029']

theorem isLineEnd_of_mem_lineTerminators : ∀ c ∈ lineTerminators, Text.isLineEnd c = true :=
  List.all_eq_true.mp (by decide)

/-- There is nothing in the text that ends a line. -/
def OneLine (cs : List Char) : Prop := ∀ c ∈ cs, Text.isLineEnd c = false

instance : DecidablePred OneLine := fun cs =>
  decidable_of_iff (cs.all fun c => !Text.isLineEnd c) (by simp [OneLine])

theorem OneLine.nil : OneLine [] := List.forall_mem_nil _

theorem OneLine.reverse {cs : List Char} (h : OneLine cs) : OneLine cs.reverse :=
  fun c hc => h c (List.mem_reverse.mp hc)

theorem OneLine.append {xs ys : List Char} (hx : OneLine xs) (hy : OneLine ys) :
    OneLine (xs ++ ys) := List.forall_mem_append.mpr ⟨hx, hy⟩

/-- The line that is being collected has no line end in it, and neither has any line after it. -/
theorem oneLine_of_mem_linesFrom {line cs : List Char} (hline : OneLine line) :
    ∀ l ∈ Text.linesFrom line cs, OneLine l := by
  fun_induction Text.linesFrom line cs with
  | case1 line hempty => exact List.forall_mem_nil _
  | case2 line hempty => exact List.forall_mem_singleton.mpr hline.reverse
  | case3 line rest ih => exact List.forall_mem_cons.mpr ⟨hline.reverse, ih .nil⟩
  | case4 line c rest _ hend ih => exact List.forall_mem_cons.mpr ⟨hline.reverse, ih .nil⟩
  | case5 line c rest _ hend ih =>
      have hc : Text.isLineEnd c = false := Bool.not_eq_true _ ▸ hend
      exact ih (List.forall_mem_cons.mpr ⟨hc, hline⟩)

theorem oneLine_of_mem_lines {s line : String} (h : line ∈ Text.lines s) : OneLine line.toList := by
  obtain ⟨l, hl, rfl⟩ := List.mem_map.mp h
  rw [String.toList_ofList]
  exact oneLine_of_mem_linesFrom .nil l hl

theorem OneLine.escapeXml {s : String} (h : OneLine s.toList) : OneLine (escapeXml s).toList := by
  intro x hx
  rw [CSharp.escapeXml, String.toList_ofList] at hx
  obtain ⟨c, hc, hxc⟩ := List.mem_flatMap.mp hx
  have hend := h c hc
  clear hc hx
  induction c using xmlChar_cases with
  | amp =>
      have hentity : OneLine "&amp;".toList := by decide
      exact hentity x hxc
  | less =>
      have hentity : OneLine "&lt;".toList := by decide
      exact hentity x hxc
  | greater =>
      have hentity : OneLine "&gt;".toList := by decide
      exact hentity x hxc
  | plain c =>
      obtain rfl := List.mem_singleton.mp hxc
      exact hend

/-! ## Lines with marks -/

/-- What can stand before the text of a line: nothing, or a mark. -/
def openings : List String := ["", "<summary>", "</summary>", "<para>", "<para/>"]

/-- What can stand behind the text of a line. -/
def closings : List String := ["", "</para>"]

/-- The marks around a summary. -/
def frame : List String := ["<summary>", "</summary>"]

/-- A line of a summary: the mark before the text, the text, and the mark behind it. -/
structure CommentLine where
  opening : String := ""
  text : String := ""
  closing : String := ""
  deriving DecidableEq

namespace CommentLine

/-- The line as it is written, with its text in XML. -/
def marked (l : CommentLine) : String := l.opening ++ escapeXml l.text ++ l.closing

/-- The line in code, at a level. -/
def inCode (n : Nat) (l : CommentLine) : String := indented n ("/// " ++ l.marked)

/-- Only marks of a summary stand around the text, and the text is one line. -/
structure Allowed (l : CommentLine) : Prop where
  opening : l.opening ∈ openings
  closing : l.closing ∈ closings
  text : OneLine l.text.toList

/-- The mark that the line begins with, up to its angle bracket, and what comes after it. -/
def cutOpening (cs : List Char) : List Char × List Char :=
  if cs.head? = some '<' then (cs.takeWhile (· ≠ '>') ++ ['>'], (cs.dropWhile (· ≠ '>')).tail)
  else ([], cs)

/-- What comes before the mark at the end of the line, and that mark. -/
def cutClosing (cs : List Char) : List Char × String :=
  match cs.dropSuffix? "</para>".toList with
  | some inside => (inside, "</para>")
  | none => (cs, "")

/-- Tells the marks from the text. -/
def read (cs : List Char) : CommentLine :=
  let (inside, closing) := cutClosing cs
  let (opening, text) := cutOpening inside
  { opening := String.ofList opening, text := String.ofList (unescape text), closing }

variable {opening closing : String} {text : List Char}

/-- Text in XML begins no mark, so whatever comes after a mark is left alone. -/
theorem cutOpening_append (hopening : opening ∈ openings) (htext : '<' ∉ text) :
    cutOpening (opening.toList ++ text) = (opening.toList, text) := by
  simp only [openings, List.mem_cons, List.not_mem_nil, or_false] at hopening
  rcases hopening with rfl | rfl | rfl | rfl | rfl
  · exact if_neg fun h => htext (List.mem_of_mem_head? h)
  all_goals rfl

/-- No mark at the beginning of a line looks like the end of a paragraph. -/
theorem ne_append_closing (hopening : opening ∈ openings) (htext : '<' ∉ text)
    (inside : List Char) : opening.toList ++ text ≠ inside ++ "</para>".toList := by
  -- behind the first character there is no angle bracket on the left
  have htail : '<' ∉ (opening.toList ++ text).tail := by
    simp only [openings, List.mem_cons, List.not_mem_nil, or_false] at hopening
    rcases hopening with rfl | rfl | rfl | rfl | rfl
    · exact fun h => htext (List.mem_of_mem_tail h)
    all_goals simp [htext]
  intro h
  rw [h] at htail
  cases inside with
  | cons c rest =>
      exact htail (List.mem_append_right _ (by decide))
  | nil =>
      -- the closing mark would be the whole line, and no opening mark begins like it
      simp only [openings, List.mem_cons, List.not_mem_nil, or_false] at hopening
      rcases hopening with rfl | rfl | rfl | rfl | rfl
      · have hmem : '<' ∈ "".toList ++ text := by
          rw [h]
          decide
        exact htext hmem
      all_goals cases h

theorem cutClosing_append (hopening : opening ∈ openings) (hclosing : closing ∈ closings)
    (htext : '<' ∉ text) :
    cutClosing (opening.toList ++ text ++ closing.toList) = (opening.toList ++ text, closing) := by
  unfold cutClosing
  simp only [closings, List.mem_cons, List.not_mem_nil, or_false] at hclosing
  rcases hclosing with rfl | rfl
  · have hnone : (opening.toList ++ text ++ "".toList).dropSuffix? "</para>".toList = none := by
      rw [Option.eq_none_iff_forall_ne_some]
      intro inside h
      obtain ⟨closing, heq, hsame⟩ := List.dropSuffix?_eq_some_iff.mp h
      rw [eq_of_beq hsame, String.toList_empty, List.append_nil] at heq
      exact ne_append_closing hopening htext inside heq
    rw [hnone]
    simp
  · have hsome : (opening.toList ++ text ++ "</para>".toList).dropSuffix? "</para>".toList =
        some (opening.toList ++ text) :=
      List.dropSuffix?_eq_some_iff.mpr ⟨_, rfl, beq_self_eq_true _⟩
    rw [hsome]

/-- **A line is read back as it was.** -/
theorem read_marked {l : CommentLine} (h : l.Allowed) : read l.marked.toList = l := by
  obtain ⟨opening, text, closing⟩ := l
  have htext : '<' ∉ (escapeXml text).toList := (escaped_escapeXml text).less_notMem
  have hmarked : (CommentLine.marked ⟨opening, text, closing⟩).toList =
      opening.toList ++ (escapeXml text).toList ++ closing.toList := by
    rw [marked, String.toList_append, String.toList_append]
  rw [read, hmarked, cutClosing_append h.opening h.closing htext]
  dsimp only
  rw [cutOpening_append h.opening htext]
  dsimp only
  rw [unescape_escapeXml, String.ofList_toList, String.ofList_toList]

end CommentLine

/-! ## Summaries -/

/-- The lines of a text. There is always one. -/
def linesOrEmpty (s : String) : List String :=
  match Text.lines s with
  | [] => [""]
  | lines => lines

theorem linesOrEmpty_ne_nil (s : String) : linesOrEmpty s ≠ [] := by
  unfold linesOrEmpty
  split
  · exact List.cons_ne_nil _ _
  · assumption

theorem commentTextLines_eq (s : String) :
    commentTextLines s = (linesOrEmpty s).map escapeXml := by
  unfold commentTextLines linesOrEmpty
  cases Text.lines s with
  | nil => rfl
  | cons line rest => rfl

theorem oneLine_of_mem_linesOrEmpty {s line : String} (h : line ∈ linesOrEmpty s) :
    OneLine line.toList := by
  unfold linesOrEmpty at h
  split at h
  · obtain rfl := List.mem_singleton.mp h
    exact .nil
  · exact oneLine_of_mem_lines h

namespace CommentLine

/-- A line of text without marks. -/
def plain (text : String) : CommentLine := { text }

/-- Puts the mark of a paragraph's end on its last line. -/
def closeLast : List CommentLine → List CommentLine
  | [] => []
  | [l] => [{ l with closing := "</para>" }]
  | l :: rest => l :: closeLast rest

/-- The lines of a paragraph with their marks. -/
def ofParagraph (s : String) : List CommentLine :=
  match linesOrEmpty s with
  | [] => []
  | first :: rest => closeLast ({ opening := "<para>", text := first } :: rest.map plain)

/-- The lines of a trailing comment with their marks; whether there are paragraphs before it. -/
def ofTrailing (after : Bool) (s : String) : List CommentLine :=
  (if after then [{ opening := "<para/>" }] else []) ++ (linesOrEmpty s).map plain

/-- What stands between the first line of a summary and its last. -/
def insideOf (preceding : List String) (trailing : Option String) : List CommentLine :=
  preceding.flatMap ofParagraph ++ trailing.elim [] (ofTrailing !preceding.isEmpty)

/-- The lines of a summary with their marks. -/
def ofSummary (preceding : List String) (trailing : Option String) : List CommentLine :=
  if preceding.isEmpty && trailing.isNone then []
  else
    [{ opening := "<summary>" }] ++ insideOf preceding trailing ++ [{ opening := "</summary>" }]

theorem marked_plain (text : String) : (plain text).marked = escapeXml text := by
  rw [marked, plain, String.empty_append, String.append_empty]

theorem commentTextLines_eq_marked (s : String) :
    commentTextLines s = ((linesOrEmpty s).map plain).map marked := by
  rw [commentTextLines_eq, List.map_map]
  exact List.map_congr_left fun text _ => (marked_plain text).symm

/-- The mark goes on the last line whether the marks were written before or are written after. -/
theorem map_marked_closeLast {ls : List CommentLine} (h : ∀ l ∈ ls, l.closing = "") :
    (closeLast ls).map marked = closeParagraph (ls.map marked) := by
  induction ls with
  | nil => rfl
  | cons l rest ih =>
      cases rest with
      | nil =>
          have hl : l.closing = "" := h l List.mem_cons_self
          rw [closeLast, List.map_singleton, List.map_singleton, closeParagraph, marked, marked, hl,
            String.append_empty]
      | cons l' rest =>
          have hrest := ih fun x hx => h x (List.mem_cons_of_mem l hx)
          rw [closeLast, List.map_cons, hrest]
          · rfl
          · exact List.cons_ne_nil l' rest

theorem paragraphLines_eq (s : String) : paragraphLines s = (ofParagraph s).map marked := by
  unfold paragraphLines ofParagraph
  rw [commentTextLines_eq_marked]
  cases linesOrEmpty s with
  | nil => rfl
  | cons first rest =>
      have hfirst : marked { opening := "<para>", text := first } =
          "<para>" ++ (plain first).marked := by
        rw [marked_plain, marked, String.append_empty]
      rw [map_marked_closeLast (by simp [plain]), List.map_cons, List.map_cons, List.map_cons,
        hfirst]

theorem summaryLines_eq (a : Annotations) : summaryLines a =
    (ofSummary (a.precedingComment.getD []) a.trailingComment).map marked := by
  have hparagraphs : paragraphLines = fun s => (ofParagraph s).map marked :=
    funext paragraphLines_eq
  unfold summaryLines ofSummary
  dsimp only
  split
  · rfl
  · rw [List.map_append, List.map_append, insideOf, List.map_append, List.map_flatMap, hparagraphs,
      ← List.append_assoc]
    cases a.trailingComment with
    | none => rfl
    | some text =>
        dsimp only [Option.elim]
        rw [commentTextLines_eq_marked, ofTrailing, List.map_append]
        cases (a.precedingComment.getD []).isEmpty <;> rfl

/-! ### Only marks of a summary -/

/-- Only marks of what is inside a summary stand around the text. -/
structure Inside (l : CommentLine) : Prop extends Allowed l where
  inside : l.opening ∉ frame

theorem Inside.of {opening text closing : String} (hopening : opening ∈ openings)
    (hframe : opening ∉ frame) (hclosing : closing ∈ closings) (htext : OneLine text.toList) :
    Inside { opening, text, closing } := ⟨⟨hopening, hclosing, htext⟩, hframe⟩

theorem inside_plain {text : String} (h : OneLine text.toList) : (plain text).Inside :=
  .of (by decide) (by decide) (by decide) h

theorem allowed_mark {opening : String} (h : opening ∈ openings) : Allowed { opening } := by
  have hclosing : "" ∈ closings := by decide
  exact ⟨h, hclosing, .nil⟩

theorem inside_closeLast {ls : List CommentLine} (h : ∀ l ∈ ls, l.Inside) :
    ∀ l ∈ closeLast ls, l.Inside := by
  induction ls with
  | nil => exact h
  | cons l rest ih =>
      obtain ⟨hl, hrest⟩ := List.forall_mem_cons.mp h
      cases rest with
      | nil =>
          exact List.forall_mem_singleton.mpr (.of hl.opening hl.inside (by decide) hl.text)
      | cons l' rest => exact List.forall_mem_cons.mpr ⟨hl, ih hrest⟩

theorem inside_ofParagraph (s : String) : ∀ l ∈ ofParagraph s, l.Inside := by
  have hlines : ∀ line ∈ linesOrEmpty s, OneLine line.toList :=
    fun _ hline => oneLine_of_mem_linesOrEmpty hline
  unfold ofParagraph
  cases hs : linesOrEmpty s with
  | nil => exact List.forall_mem_nil _
  | cons first rest =>
      rw [hs] at hlines
      obtain ⟨hfirst, hrest⟩ := List.forall_mem_cons.mp hlines
      have hmarked : Inside { opening := "<para>", text := first } :=
        .of (by decide) (by decide) (by decide) hfirst
      refine inside_closeLast (List.forall_mem_cons.mpr ⟨hmarked, ?_⟩)
      exact List.forall_mem_map.mpr fun line hline => inside_plain (hrest line hline)

theorem inside_ofTrailing (after : Bool) (s : String) : ∀ l ∈ ofTrailing after s, l.Inside := by
  refine List.forall_mem_append.mpr ⟨?_, ?_⟩
  · cases after with
    | false => exact List.forall_mem_nil _
    | true => exact List.forall_mem_singleton.mpr ⟨allowed_mark (by decide), by decide⟩
  · exact List.forall_mem_map.mpr fun line hline => inside_plain (oneLine_of_mem_linesOrEmpty hline)

theorem inside_insideOf (preceding : List String) (trailing : Option String) :
    ∀ l ∈ insideOf preceding trailing, l.Inside := by
  refine List.forall_mem_append.mpr ⟨?_, ?_⟩
  · intro l hl
    obtain ⟨s, _, hs⟩ := List.mem_flatMap.mp hl
    exact inside_ofParagraph s l hs
  · cases trailing with
    | none => exact List.forall_mem_nil _
    | some text => exact inside_ofTrailing _ text

theorem allowed_ofSummary (preceding : List String) (trailing : Option String) :
    ∀ l ∈ ofSummary preceding trailing, l.Allowed := by
  unfold ofSummary
  split
  · exact List.forall_mem_nil _
  · refine List.forall_mem_append.mpr ⟨List.forall_mem_append.mpr ⟨?_, ?_⟩, ?_⟩
    · exact List.forall_mem_singleton.mpr (allowed_mark (by decide))
    · exact fun l hl => (inside_insideOf preceding trailing l hl).toAllowed
    · exact List.forall_mem_singleton.mpr (allowed_mark (by decide))

/-- The marks around a summary can be told from all that is inside of it. -/
theorem filter_ofSummary (preceding : List String) (trailing : Option String) :
    (ofSummary preceding trailing).filter (fun l => l.opening ∉ frame) =
      insideOf preceding trailing := by
  have hinside : (insideOf preceding trailing).filter
      (fun l => l.opening ∉ frame) = insideOf preceding trailing :=
    List.filter_eq_self.mpr fun l hl =>
      decide_eq_true (inside_insideOf preceding trailing l hl).inside
  unfold ofSummary
  split
  · rename_i hnone
    obtain ⟨hp, ht⟩ := Bool.and_eq_true_iff.mp hnone
    rw [List.isEmpty_iff] at hp
    rw [Option.isNone_iff_eq_none] at ht
    subst hp ht
    rfl
  · rw [List.filter_append, List.filter_append, hinside, List.filter_singleton, List.filter_singleton]
    exact List.append_nil _

end CommentLine

/-! ## Reading summaries -/

/-- What a summary tells: the lines of each paragraph, and of the trailing comment. -/
structure SummaryText where
  paragraphs : List (List String)
  trailing : Option (List String)
  deriving DecidableEq

/-- Reads a line of code, if it is a documentation comment. -/
def commentLine? (line : String) : Option CommentLine := do
  let cs ← (line.toList.dropWhile (· = '\t')).dropPrefix? "/// ".toList
  return .read cs

/-- Cuts lines behind each one that closes a paragraph. What comes after the last of them is no
paragraph. -/
def cutParagraphs : List CommentLine → List (List String) × List CommentLine
  | [] => ([], [])
  | l :: rest =>
    let (paragraphs, after) := cutParagraphs rest
    if l.closing = "</para>" then ([l.text] :: paragraphs, after)
    else
      match paragraphs with
      | [] => ([], l :: after)
      | paragraph :: more => ((l.text :: paragraph) :: more, after)

/-- What comes after the paragraphs, if anything does. -/
def trailing? : List CommentLine → Option (List String)
  | [] => none
  | l :: rest => some ((if l.opening = "<para/>" then rest else l :: rest).map (·.text))

/-- Reads the lines of a summary. -/
def readSummary (lines : List String) : Option SummaryText := do
  let read ← lines.mapM commentLine?
  let (paragraphs, after) :=
    cutParagraphs (read.filter fun l => l.opening ∉ frame)
  return ⟨paragraphs, trailing? after⟩

theorem inCode_eq (n : Nat) (l : CommentLine) :
    l.inCode n = String.ofList (List.replicate n '\t') ++ "/// " ++ l.marked := by
  have hsome : ¬("/// " ++ l.marked).isEmpty = true := by
    rw [String.isEmpty_iff, String.append_eq_empty_iff]
    exact fun h => absurd h.1 (by decide)
  rw [CommentLine.inCode, indented, if_neg hsome, Int.toNat_natCast, String.append_assoc]

/-- The tabs in front of a comment are no part of it. -/
theorem commentLine?_inCode (n : Nat) {l : CommentLine} (h : l.Allowed) :
    commentLine? (l.inCode n) = some l := by
  have hline : (l.inCode n).toList =
      List.replicate n '\t' ++ ("/// ".toList ++ l.marked.toList) := by
    rw [inCode_eq, String.toList_append, String.toList_append, String.toList_ofList,
      List.append_assoc]
  have htabs : (List.replicate n '\t' ++ ("/// ".toList ++ l.marked.toList)).dropWhile (· = '\t') =
      "/// ".toList ++ l.marked.toList := by
    rw [List.dropWhile_append_of_pos fun c hc => decide_eq_true (List.eq_of_mem_replicate hc)]
    rfl
  have hmark : ("/// ".toList ++ l.marked.toList).dropPrefix? "/// ".toList =
      some l.marked.toList :=
    List.dropPrefix?_append_of_beq _ (beq_self_eq_true _)
  rw [commentLine?, hline, htabs, hmark]
  exact congrArg some (CommentLine.read_marked h)

theorem mapM_commentLine? (n : Nat) {ls : List CommentLine} (h : ∀ l ∈ ls, l.Allowed) :
    (ls.map (·.inCode n)).mapM commentLine? = some ls := by
  induction ls with
  | nil => rfl
  | cons l rest ih =>
      obtain ⟨hl, hrest⟩ := List.forall_mem_cons.mp h
      rw [List.map_cons, List.mapM_cons, commentLine?_inCode n hl, ih hrest]
      rfl

/-- Lines in which no paragraph ends. -/
theorem cutParagraphs_of_closing {ls : List CommentLine} (h : ∀ l ∈ ls, l.closing = "") :
    cutParagraphs ls = ([], ls) := by
  induction ls with
  | nil => rfl
  | cons l rest ih =>
      obtain ⟨hl, hrest⟩ := List.forall_mem_cons.mp h
      rw [cutParagraphs, ih hrest, hl]
      rfl

/-- The lines up to the first that closes a paragraph are a paragraph. -/
theorem cutParagraphs_closeLast {l : CommentLine} {rest : List CommentLine}
    (h : ∀ x ∈ l :: rest, x.closing = "") (after : List CommentLine) :
    cutParagraphs (CommentLine.closeLast (l :: rest) ++ after) =
      (((l :: rest).map (·.text)) :: (cutParagraphs after).1, (cutParagraphs after).2) := by
  induction rest generalizing l with
  | nil => rfl
  | cons l' rest ih =>
      obtain ⟨hl, hrest⟩ := List.forall_mem_cons.mp h
      rw [CommentLine.closeLast, List.cons_append, cutParagraphs, ih hrest, hl]
      · rfl
      · exact List.cons_ne_nil l' rest

theorem cutParagraphs_ofParagraph (s : String) (after : List CommentLine) :
    cutParagraphs (CommentLine.ofParagraph s ++ after) =
      (linesOrEmpty s :: (cutParagraphs after).1, (cutParagraphs after).2) := by
  unfold CommentLine.ofParagraph
  cases hs : linesOrEmpty s with
  | nil => exact absurd hs (linesOrEmpty_ne_nil s)
  | cons first rest =>
      have htexts : (rest.map CommentLine.plain).map (·.text) = rest := by
        rw [List.map_map]
        exact List.map_id rest
      dsimp only
      rw [cutParagraphs_closeLast (by simp [CommentLine.plain]), List.map_cons, htexts]

/-- Paragraphs are cut apart, whatever comes after them. -/
theorem cutParagraphs_flatMap (preceding : List String) (after : List CommentLine) :
    cutParagraphs (preceding.flatMap CommentLine.ofParagraph ++ after) =
      (preceding.map linesOrEmpty ++ (cutParagraphs after).1, (cutParagraphs after).2) := by
  induction preceding with
  | nil => rfl
  | cons s rest ih =>
      rw [List.flatMap_cons, List.append_assoc, cutParagraphs_ofParagraph, ih]
      rfl

/-- An empty trailing comment is a line, so it is not taken for none. -/
theorem trailing?_ofTrailing (after : Bool) (s : String) :
    trailing? (CommentLine.ofTrailing after s) = some (linesOrEmpty s) := by
  have htexts : ((linesOrEmpty s).map CommentLine.plain).map (·.text) = linesOrEmpty s := by
    rw [List.map_map]
    exact List.map_id _
  unfold CommentLine.ofTrailing
  cases after with
  | true => exact congrArg some htexts
  | false =>
      cases hs : linesOrEmpty s with
      | nil => exact absurd hs (linesOrEmpty_ne_nil s)
      | cons first rest =>
          rw [hs] at htexts
          exact congrArg some htexts

theorem cutParagraphs_insideOf (preceding : List String) (trailing : Option String) :
    cutParagraphs (CommentLine.insideOf preceding trailing) =
      (preceding.map linesOrEmpty,
        trailing.elim [] (CommentLine.ofTrailing !preceding.isEmpty)) := by
  have hclosing : ∀ l ∈ trailing.elim [] (CommentLine.ofTrailing !preceding.isEmpty),
      l.closing = "" := by
    cases trailing with
    | none => exact List.forall_mem_nil _
    | some text =>
        refine List.forall_mem_append.mpr ⟨?_, List.forall_mem_map.mpr fun _ _ => rfl⟩
        cases preceding <;> simp
  rw [CommentLine.insideOf, cutParagraphs_flatMap, cutParagraphs_of_closing hclosing,
    List.append_nil]

/-- The lines of a summary tell what was commented, at any level. -/
theorem readSummary_inCode (n : Nat) (preceding : List String) (trailing : Option String) :
    readSummary ((CommentLine.ofSummary preceding trailing).map (·.inCode n)) =
      some ⟨preceding.map linesOrEmpty, trailing.map linesOrEmpty⟩ := by
  have htrailing : trailing? (trailing.elim [] (CommentLine.ofTrailing !preceding.isEmpty)) =
      trailing.map linesOrEmpty := by
    cases trailing with
    | none => rfl
    | some text => exact trailing?_ofTrailing _ text
  unfold readSummary
  rw [mapM_commentLine? n (CommentLine.allowed_ofSummary preceding trailing)]
  dsimp only [Option.bind_eq_bind, Option.bind_some]
  rw [CommentLine.filter_ofSummary, cutParagraphs_insideOf, ← htrailing]
  rfl

/-! ## Comments in code -/

/-- A line of code at a level that is a documentation comment, whatever its text says. -/
structure CommentedAt (n : Nat) (line : String) : Prop where
  /-- The line does not end before its end. -/
  oneLine : ∀ c ∈ lineTerminators, c ∉ line.toList
  /-- Behind the tabs and the marks of the comment there is text in XML, and only marks of a summary
  are around it. -/
  shape : ∃ opening ∈ openings, ∃ closing ∈ closings, ∃ text : String, Escaped text.toList ∧
    line = String.ofList (List.replicate n '\t') ++ "/// " ++ (opening ++ text ++ closing)

theorem CommentLine.Allowed.commentedAt {l : CommentLine} (h : l.Allowed) (n : Nat) :
    CommentedAt n (l.inCode n) := by
  have hline := inCode_eq n l
  refine ⟨?_, l.opening, h.opening, l.closing, h.closing, escapeXml l.text,
    escaped_escapeXml l.text, hline⟩
  have hopening : OneLine l.opening.toList := by
    have hall : ∀ s ∈ openings, OneLine s.toList := by decide
    exact hall _ h.opening
  have hclosing : OneLine l.closing.toList := by
    have hall : ∀ s ∈ closings, OneLine s.toList := by decide
    exact hall _ h.closing
  have hslashes : OneLine "/// ".toList := by decide
  have htabs : OneLine (List.replicate n '\t') := by
    intro c hc
    rw [List.eq_of_mem_replicate hc]
    decide
  have hone : OneLine (l.inCode n).toList := by
    rw [hline, CommentLine.marked]
    simp only [String.toList_append, String.toList_ofList]
    exact (htabs.append hslashes).append ((hopening.append h.text.escapeXml).append hclosing)
  intro c hc hmem
  have hend := hone c hmem
  rw [isLineEnd_of_mem_lineTerminators c hc] at hend
  exact absurd hend (by decide)

/-- A summary is written as comments, and all that was commented can be read from it. -/
structure SummaryWritten (n : Nat) (a : Annotations) (appended : List String) : Prop where
  commented : ∀ line ∈ appended, CommentedAt n line
  /-- Every paragraph has its lines, or an empty one, and so has a trailing comment if there is
  one. -/
  read : readSummary appended =
    some ⟨(a.precedingComment.getD []).map linesOrEmpty, a.trailingComment.map linesOrEmpty⟩

/-- **Comments stay comments, and nothing of them is lost.** The summary is appended to the lines
that are there already; whatever the header says in it, it changes nothing else. -/
theorem apply_summary (a : Annotations) {p : Page} {n : Nat} (h : p.level = n) :
    ∃ appended, p.apply (summary a) = { p with lines := p.lines ++ appended } ∧
      SummaryWritten n a appended := by
  obtain ⟨ls, hls⟩ :
      ∃ ls, ls = CommentLine.ofSummary (a.precedingComment.getD []) a.trailingComment := ⟨_, rfl⟩
  have hmarks : summary a = (ls.map fun l => "/// " ++ l.marked).map .line := by
    rw [summary, CommentLine.summaryLines_eq, hls, List.map_map, List.map_map]
    rfl
  have happended :=
    (Writes.lines (ls.map fun l => "/// " ++ l.marked)).standsAnywhere.anywhere p n h
  have hcode : (ls.map fun l => "/// " ++ l.marked).map (indented n) = ls.map (·.inCode n) :=
    List.map_map
  rw [hcode] at happended
  refine ⟨ls.map (·.inCode n), hmarks ▸ happended, ?_, ?_⟩
  · rw [hls]
    refine List.forall_mem_map.mpr fun l hl => ?_
    exact (CommentLine.allowed_ofSummary _ _ l hl).commentedAt n
  · rw [hls]
    exact readSummary_inCode n _ _

/-! ## A comment that looks like code -/

/-- A comment with marks, entities and line ends in it, an empty one, and an empty one behind. -/
def hostileAnnotations : Annotations where
  precedingComment := some ["</summary>\u2028[Obsolete] a && b\r\n", "", "&lt;para/>"]
  trailingComment := some ""

theorem apply_summary_hostileAnnotations :
    (Page.level { level := 1, lines := ["struct S", "\x7b"] } = ((1 : Nat) : Int)) ∧
      ∃ appended, (Page.apply { level := 1, lines := ["struct S", "\x7b"] }
          (summary hostileAnnotations)) =
        { level := 1, lines := ["struct S", "\x7b"] ++ appended } ∧
        SummaryWritten 1 hostileAnnotations appended :=
  ⟨rfl, apply_summary hostileAnnotations rfl⟩

-- the marks in it are text
example : summaryLines hostileAnnotations = ["<summary>",
    "<para>&lt;/summary&gt;", "[Obsolete] a &amp;&amp; b</para>", "<para></para>",
    "<para>&amp;lt;para/&gt;</para>", "<para/>", "", "</summary>"] := by decide +kernel

end NativeBindings
