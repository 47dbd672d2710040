import GoBuild.Proofs.Source.Region
import GoBuild.Search.Matcher
import GoBuild.Selection

/-!
# Line endings

A source file may end its lines with a newline or with a carriage return and a newline. Putting a
carriage return before every newline (`withReturns`) changes the text of a file in the same way
(`text_withReturns`). A header tells nothing but its trimmed lines, so it stays the same
(`Header.ofText_returned`), and what is skipped before and after the package keyword goes on to the
same code (`skipFrom_returned`). All that is read from a file stays the same therefore
(`reads_withReturns_eq`).
-/

namespace GoBuild

namespace Source

/-- The bytes with a carriage return before every newline. -/
def withReturns (bytes : List UInt8) : List UInt8 :=
  bytes.flatMap fun b => if b = newline then [0x0d, newline] else [b]

/-- The text with a carriage return before every newline. -/
def returned (text : List Char) : List Char :=
  text.flatMap fun c => if c = '\n' then ['\r', '\n'] else [c]

/-! ### Line by line -/

/-- What is true of every single line, and of a line and more if it is true of these, is true of
every list. -/
theorem induction_on_lines {α : Type} [DecidableEq α] {a : α} {P : List α → Prop}
    (last : ∀ line, a ∉ line → P line)
    (cons : ∀ line rest, a ∉ line → P rest → P (line ++ a :: rest)) (xs : List α) : P xs := by
  induction hlength : xs.length using Nat.strong_induction_on generalizing xs with
  | _ n ih =>
    by_cases hmem : a ∈ xs
    · obtain ⟨line, rest, rfl, hline⟩ := List.eq_append_cons_of_mem hmem
      have hshort : rest.length < n := by
        simp only [← hlength, List.length_append, List.length_cons]
        omega
      exact cons line rest hline (ih rest.length hshort rest rfl)
    · exact last xs hmem

theorem withReturns_of_not_mem {line : List UInt8} (h : newline ∉ line) : withReturns line = line := by
  induction line with
  | nil => rfl
  | cons b line ih =>
    rw [List.mem_cons, not_or] at h
    rw [withReturns, List.flatMap_cons, if_neg (Ne.symm h.1)]
    exact congrArg (b :: ·) (ih h.2)

theorem withReturns_append_newline {line : List UInt8} (h : newline ∉ line) (rest : List UInt8) :
    withReturns (line ++ newline :: rest) = line ++ 0x0d :: newline :: withReturns rest := by
  have hline := withReturns_of_not_mem h
  rw [withReturns] at hline
  rw [withReturns, List.flatMap_append, hline]
  rfl

theorem returned_cons_of_ne {c : Char} (h : c ≠ '\n') (cs : List Char) :
    returned (c :: cs) = c :: returned cs := by
  rw [returned, List.flatMap_cons, if_neg h]
  rfl

theorem returned_newline_cons (cs : List Char) :
    returned ('\n' :: cs) = '\r' :: '\n' :: returned cs := rfl

theorem returned_append (cs ds : List Char) : returned (cs ++ ds) = returned cs ++ returned ds :=
  List.flatMap_append

theorem returned_of_not_mem {line : List Char} (h : '\n' ∉ line) : returned line = line := by
  induction line with
  | nil => rfl
  | cons c line ih =>
    rw [List.mem_cons, not_or] at h
    rw [returned_cons_of_ne (Ne.symm h.1), ih h.2]

theorem decodeLossy_withReturns (bytes : List UInt8) :
    Text.decodeLossy (withReturns bytes) = returned (Text.decodeLossy bytes) := by
  induction bytes using induction_on_lines (a := newline) with
  | last line hline =>
    rw [withReturns_of_not_mem hline,
      returned_of_not_mem (newline_mem_decodeLossy_iff.not.2 hline)]
  | cons line rest hline ih =>
    have hline' := returned_of_not_mem (newline_mem_decodeLossy_iff.not.2 hline)
    have hnewline := Text.decodeLossy_append_cons (b := newline) (by decide) line rest
    have hreturn := Text.decodeLossy_append_cons (b := 0x0d) (by decide) line
      (newline :: withReturns rest)
    have hcons := Text.decodeLossy_ascii_cons (b := newline) (by decide) (withReturns rest)
    rw [withReturns_append_newline hline, hreturn, hcons, ih, hnewline, returned_append, hline']
    rfl

theorem text_withReturns (content : List UInt8) :
    text (withReturns content) = returned (text content) := by
  rw [text, text, decodeLossy_withReturns]
  cases Text.decodeLossy content with
  | nil => rfl
  | cons c cs =>
    by_cases hc : c = '\n'
    · subst hc
      rfl
    · rw [returned_cons_of_ne hc, dropMark, dropMark]
      split
      · rfl
      · rw [returned_cons_of_ne hc]

/-! ### The header -/

/-- The lines are the same when they are trimmed. -/
theorem map_trimLine_lines_returned (text : List Char) :
    (Text.lines (returned text)).map trimLine = (Text.lines text).map trimLine := by
  induction text using induction_on_lines (a := '\n') with
  | last line hline => rw [returned_of_not_mem hline]
  | cons line rest hline ih =>
    have hlonger : '\n' ∉ line ++ ['\r'] := by simp [hline]
    have htrim : trimLine (line ++ ['\r']) = trimLine line := Text.trim_concat_of_pos rfl line
    have hreturned : returned (line ++ '\n' :: rest) = (line ++ ['\r']) ++ '\n' :: returned rest := by
      rw [returned_append, returned_of_not_mem hline, returned_newline_cons]
      simp
    rw [hreturned, Text.lines_append_newline hlonger, Text.lines_append_newline hline,
      List.map_cons, List.map_cons, htrim, ih]

namespace Header

/-- Goes over one line that is trimmed. -/
def Walk.stepTrimmed (w : Walk) (trimmed : List Char) : Walk :=
  ⟨w.place.afterLine trimmed,
    if w.place = .outside && isLineComment trimmed then trimmed :: w.found else w.found⟩

theorem comments_eq_foldl_trimmed (lines : List (List Char)) :
    comments lines = ((lines.map trimLine).foldl Walk.stepTrimmed {}).found.reverse := by
  rw [comments, List.foldl_map]
  rfl

/-- A header depends on the trimmed lines of its file only. -/
theorem ofText_congr {text text' : List Char}
    (h : (Text.lines text).map trimLine = (Text.lines text').map trimLine) :
    ofText text = ofText text' := by
  simp only [ofText, comments_eq_foldl_trimmed, preamble, h]

theorem ofText_returned (text : List Char) : ofText (returned text) = ofText text :=
  ofText_congr (map_trimLine_lines_returned text)

end Header

/-! ### The package clause -/

/-- The carriage returns are put in before newlines: no text comes to begin with another character. -/
theorem head?_returned_ne {c : Char} (hc : c ≠ '\r') {text : List Char}
    (h : ∀ rest, text = c :: rest → False) : (returned text).head? ≠ some c := by
  cases text with
  | nil => exact (Option.some_ne_none c).symm
  | cons d text =>
    by_cases hd : d = '\n'
    · subst hd
      exact fun hhead => hc (Option.some.inj hhead).symm
    · rw [returned_cons_of_ne hd]
      rintro ⟨⟩
      exact h text rfl

theorem skipFrom_returned (s : Skip) (text : List Char) :
    skipFrom s (returned text) = returned (skipFrom s text) := by
  fun_induction skipFrom s text with
  | case1 s => cases s <;> rfl
  | case2 rest ih => exact ih
  | case3 rest ih => exact ih
  | case4 c rest _ _ hblank ih =>
    by_cases hc : c = '\n'
    · subst hc
      exact ih
    · rw [returned_cons_of_ne hc, skipFrom_blanks_of_isAsciiBlank hblank, ih]
  | case5 c rest hline hblock hblank =>
    rw [Bool.not_eq_true] at hblank
    have hcode : IsCode (c :: returned rest) := ⟨c, returned rest, rfl, hblank, fun hc =>
      ⟨head?_returned_ne (by decide) fun rest' => hline rest' hc,
        head?_returned_ne (by decide) fun rest' => hblock rest' hc⟩⟩
    rw [returned_cons_of_ne (ne_newline_of_isAsciiBlank hblank), hcode.skipFrom_blanks]
  | case6 rest ih => exact ih
  | case7 c rest hc ih => rw [returned_cons_of_ne hc, skipFrom, if_neg hc, ih]
  | case8 rest ih => exact ih
  | case9 c rest hopen ih =>
    by_cases hc : c = '\n'
    · subst hc
      exact ih
    · have hstart : ¬ ['*', '/'] <+: c :: returned rest := by
        rw [List.cons_prefix_cons]
        rintro ⟨hstar, more, hmore⟩
        refine head?_returned_ne (by decide) (fun rest' => hopen rest' hstar.symm) ?_
        rw [← hmore]
        rfl
      rw [returned_cons_of_ne hc, skipFrom_blockComment_cons c _ hstart, ih]

theorem skipFrom_suffix (s : Skip) (text : List Char) : skipFrom s text <:+ text := by
  fun_induction skipFrom s text with
  | case1 => exact List.suffix_refl []
  | case2 rest ih => exact ih.trans (List.suffix_append ['/', '/'] rest)
  | case3 rest ih => exact ih.trans (List.suffix_append ['/', '*'] rest)
  | case4 c rest _ _ _ ih => exact ih.trans (List.suffix_cons c rest)
  | case5 c rest => exact List.suffix_refl (c :: rest)
  | case6 rest ih => exact ih.trans (List.suffix_cons '\n' rest)
  | case7 c rest _ ih => exact ih.trans (List.suffix_cons c rest)
  | case8 rest ih => exact ih.trans (List.suffix_append ['*', '/'] rest)
  | case9 c rest _ ih => exact ih.trans (List.suffix_cons c rest)

/-- What is left of a text is all of it with the carriage returns if it is so without. -/
theorem length_returned_eq_iff {rest text : List Char} (h : rest <:+ text) :
    (returned rest).length = (returned text).length ↔ rest.length = text.length := by
  obtain ⟨front, rfl⟩ := h
  have hfront : (returned front).length = 0 ↔ front.length = 0 := by
    cases front with
    | nil => rfl
    | cons c front =>
      by_cases hc : c = '\n'
      · simp [hc, returned_newline_cons]
      · simp [returned_cons_of_ne hc]
  rw [returned_append, List.length_append, List.length_append]
  omega

theorem after?_returned {mark : List Char} (hnewline : '\n' ∉ mark) (hreturn : '\r' ∉ mark)
    (text : List Char) :
    Text.after? mark (returned text) = (Text.after? mark text).map returned := by
  induction mark generalizing text with
  | nil => rfl
  | cons m mark ih =>
    rw [List.mem_cons, not_or] at hnewline hreturn
    cases text with
    | nil => rfl
    | cons c cs =>
      by_cases hc : c = '\n'
      · subst hc
        rw [returned_newline_cons, Text.after?, Text.after?, if_neg (Ne.symm hreturn.1),
          if_neg (Ne.symm hnewline.1)]
        rfl
      · rw [returned_cons_of_ne hc, Text.after?, Text.after?,
          ih hnewline.2 hreturn.2]
        split <;> rfl

theorem nameAtStart?_returned (text : List Char) :
    nameAtStart? (returned text) = nameAtStart? text := by
  have htake : (returned text).takeWhile isNameChar = text.takeWhile isNameChar := by
    induction text with
    | nil => rfl
    | cons c cs ih =>
      by_cases hc : c = '\n'
      · subst hc
        rfl
      · rw [returned_cons_of_ne hc, List.takeWhile_cons, List.takeWhile_cons, ih]
  rw [nameAtStart?, nameAtStart?, htake]

theorem packageNameOfText?_returned (text : List Char) :
    packageNameOfText? (returned text) = packageNameOfText? text := by
  have hskip (cs : List Char) : skipBlanksAndComments (returned cs) =
      returned (skipBlanksAndComments cs) := skipFrom_returned .blanks cs
  rw [packageNameOfText?, packageNameOfText?, hskip, after?_returned (by decide) (by decide)]
  cases Text.after? packageKeyword (skipBlanksAndComments text) with
  | none => rfl
  | some rest =>
    have hlength : (returned (skipBlanksAndComments rest)).length = (returned rest).length ↔
        (skipBlanksAndComments rest).length = rest.length :=
      length_returned_eq_iff (skipFrom_suffix .blanks rest)
    simp only [Option.map_some, Option.bind_eq_bind, Option.bind_some, hskip, hlength,
      nameAtStart?_returned]

/-! ### All that is read from a file -/

/-- **Line endings do not matter.** A file with a carriage return before every newline has the same
header and the same package name, or the same errors, and so whether a context selects it, the tags
it mentions and the context found for it are the same. -/
theorem reads_withReturns_eq (content : List UInt8) :
    Header.ofContent (withReturns content) = Header.ofContent content ∧
      packageName (withReturns content) = packageName content ∧
      (∀ c : Context, c.headerCheck (withReturns content) = c.headerCheck content) ∧
      (∀ (c : Context) (path : String),
        c.selects path (withReturns content) = c.selects path content) ∧
      (∀ path : String, mentionedTags path (withReturns content) = mentionedTags path content) ∧
      ∀ (m : Matcher) (start : Context) (path : String),
        m.find start path (withReturns content) = m.find start path content := by
  have hheader : Header.ofContent (withReturns content) = Header.ofContent content := by
    rw [Header.ofContent, Header.ofContent, text_withReturns, Header.ofText_returned]
  have hpackage : packageName (withReturns content) = packageName content := by
    rw [packageName, packageName, text_withReturns, packageNameOfText?_returned]
  have hcheck (c : Context) : c.headerCheck (withReturns content) = c.headerCheck content := by
    rw [Context.headerCheck, Context.headerCheck, hheader]
  have hconstraint : Matcher.constraintOf (withReturns content) = Matcher.constraintOf content := by
    rw [Matcher.constraintOf, Matcher.constraintOf, hheader]
  refine ⟨hheader, hpackage, hcheck, fun c path => ?_, fun path => ?_, fun m start path => ?_⟩
  · rw [Context.selects, Context.selects, hcheck]
  · rw [mentionedTags, mentionedTags, hheader]
  · rw [Matcher.find, Matcher.find, hconstraint]

end Source

end GoBuild
