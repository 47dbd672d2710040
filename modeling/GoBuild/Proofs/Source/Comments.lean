import GoBuild.Proofs.Source.Region

/-!
# The comments of a leading region

The line comments that are found in the lines of a file are those of its leading region that are the
first thing on their line (`Region.comments_lines`). A line is taken up in the middle, where the
pieces before have left it (`Standing`), and each piece moves on from there.
-/

namespace GoBuild.Source

open Text (isAsciiBlank)

/-! ### Where a line ends -/

namespace Place

theorem atEndOf_of_code {c : Char} {rest : List Char} (hblank : isAsciiBlank c = false)
    (h : c = '/' → rest.head? ≠ some '/' ∧ rest.head? ≠ some '*') :
    atEndOf false (c :: rest) = code := by
  unfold atEndOf
  split <;> simp_all

theorem atEndOf_inside_cons (c : Char) (cs : List Char) (h : ¬ ['*', '/'] <+: c :: cs) :
    atEndOf true (c :: cs) = atEndOf true cs := by
  rw [atEndOf]
  rintro rest rfl rfl
  exact h ⟨rest, rfl⟩

/-! ### Blanks at the ends of a line -/

section

variable {c : Char} (hc : isAsciiBlank c = true)
include hc

theorem atEndOf_cons_of_isAsciiBlank (inside : Bool) (cs : List Char) :
    atEndOf inside (c :: cs) = atEndOf inside cs := by
  obtain ⟨hslash, hstar⟩ := ne_of_isAsciiBlank hc
  cases inside <;> simp [atEndOf, hc, hslash, hstar]

theorem atEndOf_concat_of_isAsciiBlank (inside : Bool) (cs : List Char) :
    atEndOf inside (cs ++ [c]) = atEndOf inside cs := by
  obtain ⟨hslash, hstar⟩ := ne_of_isAsciiBlank hc
  fun_induction atEndOf inside cs with
  | case1 => exact atEndOf_cons_of_isAsciiBlank hc false []
  | case2 => exact atEndOf_cons_of_isAsciiBlank hc true []
  | case3 => rfl
  | case4 rest ih => exact ih
  | case5 d rest hline hblock hd ih =>
    rw [List.cons_append, atEndOf_cons_of_isAsciiBlank hd, ih]
  | case6 d rest hline hblock hd =>
    refine atEndOf_of_code (by simpa using hd) fun hd => ?_
    cases rest <;> simp_all
  | case7 rest ih => exact ih
  | case8 d rest hclosing ih =>
    rw [List.cons_append, atEndOf_inside_cons d _ fun hstart => ?_, ih]
    obtain ⟨rfl, hnext⟩ := List.cons_prefix_cons.1 hstart
    cases rest with
    | nil => exact hslash (List.cons_prefix_cons.1 hnext).1.symm
    | cons e rest =>
      obtain rfl := (List.cons_prefix_cons.1 hnext).1
      exact hclosing rest rfl rfl

end

theorem afterLine_trimLine (p : Place) (line : List Char) :
    p.afterLine (trimLine line) = p.afterLine line := by
  have htrim (inside : Bool) : atEndOf inside (trimLine line) = atEndOf inside line := by
    have hstart : atEndOf inside (Text.trimStart isAsciiBlank line) = atEndOf inside line := by
      induction line with
      | nil => rfl
      | cons c line ih =>
        cases hc : isAsciiBlank c with
        | true => rw [Text.trimStart_cons_of_pos hc, ih, atEndOf_cons_of_isAsciiBlank hc]
        | false => rw [Text.trimStart_cons_of_neg hc]
    rw [← hstart, trimLine, Text.trim]
    generalize Text.trimStart isAsciiBlank line = cs
    induction cs using List.reverseRecOn with
    | nil => rfl
    | append_singleton cs c ih =>
      cases hc : isAsciiBlank c with
      | true => rw [Text.trimEnd_concat_of_pos hc, ih, atEndOf_concat_of_isAsciiBlank hc]
      | false => rw [Text.trimEnd_concat_of_neg hc]
  cases p with
  | outside => exact htrim false
  | inside => exact htrim true
  | code => rfl

end Place

/-! ### Blanks before a line -/

theorem trimLine_append {front : List Char} (h : ∀ c ∈ front, isAsciiBlank c = true)
    (cs : List Char) : trimLine (front ++ cs) = trimLine cs :=
  Text.trim_append_of_forall_front h cs

/-! ### The comments found from a place on -/

namespace Header

/-- The line itself, trimmed, if it is a comment that counts. -/
def commentOf (p : Place) (line : List Char) : List (List Char) :=
  if p = .outside && isLineComment (trimLine line) then [trimLine line] else []

/-- The comments found in lines before which a line ends at the place. -/
def commentsFrom : Place → List (List Char) → List (List Char)
  | _, [] => []
  | p, line :: lines => commentOf p line ++ commentsFrom (p.afterLine line) lines

theorem found_foldl_step (w : Walk) (lines : List (List Char)) :
    (lines.foldl Walk.step w).found = (commentsFrom w.place lines).reverse ++ w.found := by
  induction lines generalizing w with
  | nil => rfl
  | cons line lines ih =>
    have hplace : (w.step line).place = w.place.afterLine line := w.place.afterLine_trimLine line
    have hfound : (w.step line).found = (commentOf w.place line).reverse ++ w.found := by
      simp only [Walk.step, commentOf]
      split <;> rfl
    rw [List.foldl_cons, ih, hplace, hfound, commentsFrom]
    simp

theorem comments_eq_commentsFrom (lines : List (List Char)) :
    comments lines = commentsFrom .outside lines := by
  rw [comments, found_foldl_step]
  simp

theorem commentsFrom_code (lines : List (List Char)) : commentsFrom .code lines = [] := by
  induction lines with
  | nil => rfl
  | cons line lines ih => exact ih

theorem isLineComment_trimLine_eq_false {c : Char} {rest : List Char}
    (hblank : isAsciiBlank c = false) (h : c = '/' → rest.head? ≠ some '/') :
    isLineComment (trimLine (c :: rest)) = false := by
  rw [trimLine, Text.trim_cons_of_neg hblank]
  refine Bool.eq_false_iff.2 fun hcomment => ?_
  obtain ⟨body, hbody⟩ := Option.isSome_iff_exists.1 hcomment
  obtain ⟨rfl, htrim⟩ := List.cons.inj (Text.after?_eq_some_iff.1 hbody)
  obtain ⟨tail, htail⟩ := Text.trimEnd_prefix (p := isAsciiBlank) rest
  rw [htrim] at htail
  rw [← htail] at h
  exact h rfl rfl

theorem commentOf_eq_nil {c : Char} {rest : List Char} (hblank : isAsciiBlank c = false)
    (h : c = '/' → rest.head? ≠ some '/') (p : Place) : commentOf p (c :: rest) = [] := by
  rw [commentOf, isLineComment_trimLine_eq_false hblank h, Bool.and_false, if_neg Bool.false_ne_true]

end Header

/-- The characters at the front of a line have been passed over: `fresh` if they are blanks outside of
comments, and a block comment is open after them if `inside`. -/
structure Standing (p : Place) (front : List Char) (fresh inside : Bool) : Prop where
  oneLine : '\n' ∉ front
  afterLine_append : ∀ cs, p.afterLine (front ++ cs) = Place.atEndOf inside cs
  commentOf_append : ∀ cs,
    Header.commentOf p (front ++ cs) = if fresh then Header.commentOf .outside cs else []

namespace Standing

open Header (commentOf commentsFrom)

variable {p : Place} {front cs : List Char} {fresh inside : Bool}

theorem outside : Standing .outside [] true false :=
  ⟨List.not_mem_nil, fun _ => rfl, fun _ => rfl⟩

theorem inside_block : Standing .inside [] false true :=
  ⟨List.not_mem_nil, fun _ => rfl, fun _ => rfl⟩

theorem blank (h : Standing p front fresh false) {c : Char} (hc : isAsciiBlank c = true)
    (hnewline : c ≠ '\n') : Standing p (front ++ [c]) fresh false where
  oneLine := by simp [h.oneLine, Ne.symm hnewline]
  afterLine_append cs := by
    rw [List.append_assoc, h.afterLine_append]
    exact Place.atEndOf_cons_of_isAsciiBlank hc false cs
  commentOf_append cs := by
    have hblank : ∀ b ∈ [c], isAsciiBlank b = true := by simpa using hc
    rw [List.append_assoc, h.commentOf_append, commentOf, trimLine_append hblank]
    rfl

theorem block (h : Standing p front fresh false) : Standing p (front ++ ['/', '*']) false true where
  oneLine := by simp [h.oneLine]
  afterLine_append cs := by
    rw [List.append_assoc, h.afterLine_append]
    rfl
  commentOf_append cs := by
    have hopen : commentOf .outside ('/' :: '*' :: cs) = [] :=
      Header.commentOf_eq_nil (by decide) (by simp) _
    rw [List.append_assoc, h.commentOf_append]
    simp [hopen]

theorem closed (h : Standing p front false true) (hnewline : '\n' ∉ cs)
    (hopen : ¬ ['*', '/'] <:+: cs) : Standing p (front ++ (cs ++ ['*', '/'])) false false where
  oneLine := by simp [h.oneLine, hnewline]
  afterLine_append rest := by
    have hpass := (eq_of_no_closing Place.atEndOf_inside_cons hopen).2 ('/' :: rest)
    rw [List.append_assoc, h.afterLine_append, List.append_assoc]
    exact hpass
  commentOf_append rest := by
    rw [List.append_assoc, h.commentOf_append]
    rfl

/-- The comments found from here on when the line goes on to its end. -/
theorem commentsFrom_newline (h : Standing p front fresh inside) (hnewline : '\n' ∉ cs)
    (rest : List Char) :
    commentsFrom p (Text.lines (front ++ (cs ++ '\n' :: rest))) =
      (if fresh then commentOf .outside cs else []) ++
        commentsFrom (Place.atEndOf inside cs) (Text.lines rest) := by
  have hline : '\n' ∉ front ++ cs := by simp [h.oneLine, hnewline]
  rw [← List.append_assoc, Text.lines_append_newline hline, commentsFrom, h.commentOf_append,
    h.afterLine_append]

/-- The comments found from here on in the last line. -/
theorem commentsFrom_last (h : Standing p front fresh inside) (hnewline : '\n' ∉ cs) :
    commentsFrom p (Text.lines (front ++ cs)) = if fresh then commentOf .outside cs else [] := by
  have hline : '\n' ∉ front ++ cs := by simp [h.oneLine, hnewline]
  by_cases hnil : front ++ cs = []
  · rw [hnil, (List.append_eq_nil_iff.1 hnil).2]
    cases fresh <;> rfl
  · rw [Text.lines_of_not_mem hline hnil, commentsFrom, commentsFrom, List.append_nil,
      h.commentOf_append]

/-- The lines of a block comment are passed over up to the last one. -/
theorem commentsFrom_inside (h : Standing p front false true) (hopen : ¬ ['*', '/'] <:+: cs) :
    ∃ p' front' last, Standing p' front' false true ∧ '\n' ∉ last ∧ ¬ ['*', '/'] <:+: last ∧
      ∀ rest, commentsFrom p (Text.lines (front ++ (cs ++ rest))) =
        commentsFrom p' (Text.lines (front' ++ (last ++ rest))) := by
  -- On its first line the comment starts after `front`, on the others at the beginning.
  induction hlength : cs.length using Nat.strong_induction_on generalizing p front cs with
  | _ n ih =>
    by_cases hmem : '\n' ∈ cs
    · obtain ⟨line, more, rfl, hline⟩ := List.eq_append_cons_of_mem hmem
      have hopenLine : ¬ ['*', '/'] <:+: line := fun hwithin =>
        hopen (hwithin.trans (List.prefix_append line _).isInfix)
      have hopenMore : ¬ ['*', '/'] <:+: more := fun hwithin =>
        hopen (hwithin.trans ((List.suffix_cons '\n' more).trans (List.suffix_append line _)).isInfix)
      have hinside : Place.atEndOf true line = .inside :=
        (eq_of_no_closing Place.atEndOf_inside_cons hopenLine).1
      have hshort : more.length < n := by
        simp only [← hlength, List.length_append, List.length_cons]
        omega
      obtain ⟨p', front', last, hstand, hlast, hopenLast, heq⟩ :=
        ih more.length hshort inside_block hopenMore rfl
      refine ⟨p', front', last, hstand, hlast, hopenLast, fun rest => ?_⟩
      rw [List.append_assoc, List.cons_append, h.commentsFrom_newline hline, hinside]
      exact heq rest
    · exact ⟨p, front, cs, h, hmem, hopen, fun _ => rfl⟩

/-- Nothing is found after code. -/
theorem commentsFrom_isCode (h : Standing p front fresh false) (hcode : IsCode cs) :
    commentsFrom p (Text.lines (front ++ cs)) = [] := by
  obtain ⟨c, rest, rfl, hblank, hslash⟩ := hcode.exists_cons
  obtain ⟨line, more, hlines, hfirst⟩ :=
    Text.exists_lines_eq_cons h.oneLine (ne_newline_of_isAsciiBlank hblank) rest
  have hslash : c = '/' → line.head? ≠ some '/' ∧ line.head? ≠ some '*' := fun hc =>
    ⟨mt (hfirst _) (hslash hc).1, mt (hfirst _) (hslash hc).2⟩
  rw [hlines, commentsFrom, h.commentOf_append, h.afterLine_append,
    Header.commentOf_eq_nil hblank fun hc => (hslash hc).1, Place.atEndOf_of_code hblank hslash,
    Header.commentsFrom_code]
  cases fresh <;> rfl

end Standing

/-! ### The comments of a region -/

theorem trimLine_slash_cons (body : List UInt8) :
    trimLine ('/' :: '/' :: Text.decodeLossy body) = lineText (slash :: slash :: body) := by
  rw [← decodeLossy_slash_cons, ← decodeLossy_slash_cons, trimLine_decodeLossy]

theorem isLineComment_trimLine_slash_cons (cs : List Char) :
    isLineComment (trimLine ('/' :: '/' :: cs)) = true := by
  have htrim : trimLine ('/' :: '/' :: cs) = '/' :: '/' :: Text.trimEnd isAsciiBlank cs := by
    rw [trimLine, Text.trim_cons_of_neg (by decide)]
    exact congrArg ('/' :: ·) (Text.trimEnd_append_cons_of_neg (by decide) [] cs)
  rw [htrim]
  rfl

namespace Standing

variable {p : Place} {front : List Char} {fresh : Bool}

theorem commentOf_line (body : List UInt8) :
    (if fresh then Header.commentOf .outside ('/' :: '/' :: Text.decodeLossy body) else []) =
      (if fresh then [slash :: slash :: body] else []).map lineText := by
  rw [Header.commentOf, isLineComment_trimLine_slash_cons, trimLine_slash_cons]
  cases fresh <;> rfl

theorem commentsFrom_ending (h : Standing p front fresh false) (e : Ending) :
    Header.commentsFrom p (Text.lines (front ++ Text.decodeLossy e.bytes)) =
      (freshComments fresh [] e).map lineText := by
  cases e with
  | nothing =>
    rw [Ending.bytes, Text.decodeLossy_nil, h.commentsFrom_last List.not_mem_nil]
    cases fresh <;> rfl
  | code rest hrest => exact h.commentsFrom_isCode (isCode_decodeLossy hrest)
  | line body hbody =>
    have hfree : '\n' ∉ '/' :: '/' :: Text.decodeLossy body := by
      simp [newline_mem_decodeLossy_iff, hbody]
    rw [Ending.bytes, decodeLossy_slash_cons, decodeLossy_slash_cons, h.commentsFrom_last hfree,
      commentOf_line]
    rfl
  | block body hbody =>
    have hopen := closing_not_infix_decodeLossy hbody
    obtain ⟨p', front', last, hstand, hlast, -, heq⟩ := h.block.commentsFrom_inside hopen
    have hnone := (heq []).trans (hstand.commentsFrom_last (by simpa using hlast))
    rw [List.append_nil, List.append_assoc] at hnone
    rw [Ending.bytes, decodeLossy_slash_cons, decodeLossy_star_cons]
    exact hnone

theorem commentsFrom_blank (h : Standing p front fresh false) {b : UInt8}
    (hb : isBlankByte b = true) :
    ∃ p' front', Standing p' front' (fresh || b = newline) false ∧ ∀ rest,
      Header.commentsFrom p (Text.lines (front ++ (Char.ofNat b.toNat :: rest))) =
        Header.commentsFrom p' (Text.lines (front' ++ rest)) := by
  by_cases hnewline : b = newline
  · subst hnewline
    refine ⟨.outside, [], by simpa using outside, fun rest => ?_⟩
    refine (h.commentsFrom_newline List.not_mem_nil rest).trans ?_
    cases fresh <;> rfl
  · have hchar : Char.ofNat b.toNat ≠ '\n' := by
      rcases isBlankByte_iff.1 hb with rfl | rfl | rfl | rfl | rfl
      any_goals decide
      exact absurd rfl hnewline
    refine ⟨p, front ++ [Char.ofNat b.toNat], ?_, fun rest => ?_⟩
    · simpa [hnewline] using h.blank (isAsciiBlank_iff.2 ⟨b, hb, rfl⟩) hchar
    · rw [List.append_assoc, List.singleton_append]

theorem commentsFrom_line (h : Standing p front fresh false) {body : List UInt8}
    (hbody : newline ∉ body) (rest : List Char) :
    Header.commentsFrom p
        (Text.lines (front ++ ('/' :: '/' :: (Text.decodeLossy body ++ ['\n']) ++ rest))) =
      (if fresh then [slash :: slash :: body] else []).map lineText ++
        Header.commentsFrom .outside (Text.lines rest) := by
  have hfree : '\n' ∉ '/' :: '/' :: Text.decodeLossy body := by
    simp [newline_mem_decodeLossy_iff, hbody]
  have hplace : Place.atEndOf false ('/' :: '/' :: Text.decodeLossy body) = .outside := rfl
  have hline := h.commentsFrom_newline hfree rest
  rw [commentOf_line, hplace] at hline
  simpa using hline

theorem commentsFrom_block (h : Standing p front fresh false) {body : List UInt8}
    (hbody : ¬ closing <:+: body) :
    ∃ p' front', Standing p' front' false false ∧ ∀ rest,
      Header.commentsFrom p
          (Text.lines (front ++ ('/' :: '*' :: (Text.decodeLossy body ++ ['*', '/']) ++ rest))) =
        Header.commentsFrom p' (Text.lines (front' ++ rest)) := by
  obtain ⟨p', front', last, hstand, hlast, hopen, heq⟩ :=
    h.block.commentsFrom_inside (closing_not_infix_decodeLossy hbody)
  refine ⟨p', _, hstand.closed hlast hopen, fun rest => ?_⟩
  simpa using heq ('*' :: '/' :: rest)

/-- The comments found from here on are those of the pieces. -/
theorem commentsFrom_bytes (h : Standing p front fresh false) (r : Region) :
    Header.commentsFrom p (Text.lines (front ++ Text.decodeLossy r.bytes)) =
      (freshComments fresh r.pieces r.ending).map lineText := by
  -- A piece need not end its line, so the front of the line is carried along.
  obtain ⟨pieces, e⟩ := r
  induction pieces generalizing p front fresh with
  | nil => exact h.commentsFrom_ending e
  | cons piece pieces ih =>
    have hbytes : (⟨piece :: pieces, e⟩ : Region).bytes =
        piece.bytes ++ (⟨pieces, e⟩ : Region).bytes := Region.bytes_cons piece ⟨pieces, e⟩
    rw [hbytes, decodeLossy_piece_append]
    cases piece with
    | blank b hb =>
      obtain ⟨p', front', hstand, heq⟩ := h.commentsFrom_blank hb
      exact (heq _).trans (ih hstand)
    | line body hbody =>
      rw [freshComments, List.map_append, ← ih outside]
      exact h.commentsFrom_line hbody _
    | block body hbody =>
      obtain ⟨p', front', hstand, heq⟩ := h.commentsFrom_block hbody
      exact (heq _).trans (ih hstand)

end Standing

theorem Region.comments_lines (r : Region) :
    Header.comments (Text.lines (Text.decodeLossy r.bytes)) = r.comments.map lineText := by
  rw [Header.comments_eq_commentsFrom]
  exact Standing.outside.commentsFrom_bytes r

end GoBuild.Source
