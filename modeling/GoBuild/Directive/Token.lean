import GoBuild.Directive.TagWord
import GoBuild.Text.Utf8

/-!
# Tokens of a `//go:build` expression

The expression text is cut into tokens, each with the byte offset at which it begins. Spaces and tabs
between tokens are skipped, a tag is a maximal run of tag characters, and the first character that
begins no token ends the list, as a token of its own (`Token.stray`).
-/

namespace GoBuild.Directive

/-- A token of a `//go:build` expression. -/
inductive Token where
  | tag (name : String)
  | not
  | and
  | or
  | openParen
  | closeParen
  /-- A character that begins no token. -/
  | stray (c : Char)
deriving DecidableEq

/-- The characters of the token. -/
def Token.text : Token → String
  | tag name => name
  | not => "!"
  | and => "&&"
  | or => "||"
  | openParen => "("
  | closeParen => ")"
  | stray c => String.singleton c

/-- A token and the byte offset at which it begins. -/
structure Lexeme where
  token : Token
  offset : Nat
deriving DecidableEq

/-- What the first character of a text and those after it begin with. -/
inductive Cut where
  /-- The character is a blank. -/
  | blank
  /-- A token, and what follows it. -/
  | token (t : Token) (rest : List Char)
  /-- The character begins no token. -/
  | stray

/-- What the text `c :: cs` begins with. -/
def Cut.ofText (c : Char) (cs : List Char) : Cut :=
  if c = ' ' ∨ c = '\t' then .blank
  else if c = '(' then .token .openParen cs
  else if c = ')' then .token .closeParen cs
  else if c = '!' then .token .not cs
  else if c = '&' then
    match cs with
    | '&' :: rest => .token .and rest
    | _ => .stray
  else if c = '|' then
    match cs with
    | '|' :: rest => .token .or rest
    | _ => .stray
  else if isTagChar c then
    .token (.tag (String.ofList (c :: cs.takeWhile isTagChar))) (cs.dropWhile isTagChar)
  else .stray

/-- A token and what follows it make up the text. -/
theorem Cut.text_append {c : Char} {cs : List Char} {t : Token} {rest : List Char}
    (h : Cut.ofText c cs = .token t rest) : t.text.toList ++ rest = c :: cs := by
  unfold Cut.ofText at h
  split at h
  · cases h
  split at h
  · rename_i hc; cases h; subst hc; rfl
  split at h
  · rename_i hc; cases h; subst hc; rfl
  split at h
  · rename_i hc; cases h; subst hc; rfl
  split at h
  · rename_i hc; subst hc; split at h <;> cases h; rfl
  split at h
  · rename_i hc; subst hc; split at h <;> cases h; rfl
  split at h
  · cases h; simp [Token.text, List.takeWhile_append_dropWhile]
  · cases h

/-- No token is empty. -/
theorem Cut.text_ne_nil {c : Char} {cs : List Char} {t : Token} {rest : List Char}
    (h : Cut.ofText c cs = .token t rest) : t.text.toList ≠ [] := by
  intro ht
  unfold Cut.ofText at h
  repeat' split at h
  all_goals cases h
  all_goals simp [Token.text] at ht

theorem Cut.length_lt {c : Char} {cs : List Char} {t : Token} {rest : List Char}
    (h : Cut.ofText c cs = .token t rest) : rest.length < (c :: cs).length := by
  rw [← Cut.text_append h, List.length_append]
  have := List.length_pos_iff.2 (Cut.text_ne_nil h)
  omega

namespace Lexeme

/-- Goes on with cutting at `offset`; the lexemes cut off so far are in `done`, last one first. -/
def scanFrom (done : List Lexeme) (offset : Nat) : List Char → List Lexeme
  | [] => done.reverse
  | c :: cs =>
    match h : Cut.ofText c cs with
    | .blank => scanFrom done (offset + 1) cs
    | .token t rest =>
      scanFrom (⟨t, offset⟩ :: done) (offset + Text.utf8Length t.text.toList) rest
    | .stray => (⟨.stray c, offset⟩ :: done).reverse
termination_by cs => cs.length
decreasing_by
  · exact Nat.lt_succ_self _
  · exact Cut.length_lt h

@[simp] theorem scanFrom_nil (done : List Lexeme) (offset : Nat) :
    scanFrom done offset [] = done.reverse := by
  rw [scanFrom]

theorem scanFrom_of_blank {c : Char} {cs : List Char} (h : Cut.ofText c cs = .blank)
    (done : List Lexeme) (offset : Nat) :
    scanFrom done offset (c :: cs) = scanFrom done (offset + 1) cs := by
  rw [scanFrom]
  split <;> simp_all

theorem scanFrom_of_token {c : Char} {cs : List Char} {t : Token} {rest : List Char}
    (h : Cut.ofText c cs = .token t rest) (done : List Lexeme) (offset : Nat) :
    scanFrom done offset (c :: cs) =
      scanFrom (⟨t, offset⟩ :: done) (offset + Text.utf8Length t.text.toList) rest := by
  rw [scanFrom]
  split <;> simp_all

theorem scanFrom_of_stray {c : Char} {cs : List Char} (h : Cut.ofText c cs = .stray)
    (done : List Lexeme) (offset : Nat) :
    scanFrom done offset (c :: cs) = done.reverse ++ [⟨.stray c, offset⟩] := by
  rw [scanFrom]
  split <;> simp_all

/-- What is cut off already stays in front. -/
theorem scanFrom_eq_append (done : List Lexeme) (offset : Nat) (text : List Char) :
    scanFrom done offset text = done.reverse ++ scanFrom [] offset text := by
  induction hn : text.length using Nat.strongRecOn generalizing done offset text with
  | ind n ih =>
    cases text with
    | nil => simp
    | cons c cs =>
      subst hn
      cases h : Cut.ofText c cs with
      | blank =>
        rw [scanFrom_of_blank h, scanFrom_of_blank h]
        exact ih _ (Nat.lt_succ_self _) done (offset + 1) cs rfl
      | token t rest =>
        rw [scanFrom_of_token h, scanFrom_of_token h, ih _ (Cut.length_lt h) _ _ rest rfl,
          ih _ (Cut.length_lt h) [_] _ rest rfl]
        simp
      | stray => rw [scanFrom_of_stray h, scanFrom_of_stray h]; rfl

/-- The lexemes of an expression text. -/
def scan (text : List Char) : List Lexeme := scanFrom [] 0 text

end Lexeme

end GoBuild.Directive
