import QueryCompiler.Proofs.Injection
import QueryCompiler.Proofs.Readers

/-!
# Escaped texts are read back

A database reads a literal from its opening quote to the first quote that no backslash protects, and
takes a character behind a backslash for the one that it stands for (`Dialect.literalText`). So it
reads a written text as that text (`Dialect.reads_literalText`). It does so wherever the body of the
text stands inside a literal: in one of its own, or in a pattern with plain characters around it
(`Dialect.readLiteral?_pattern`).
-/

namespace QueryCompiler

namespace Dialect

open Grammar

/-- What a backslash in front of the character stands for. -/
def unescapeChar (c : Char) : Char :=
  if c = '0' then '\x00'
  else if c = 'b' then '\x08'
  else if c = 't' then '\t'
  else if c = 'n' then '\n'
  else if c = 'r' then '\r'
  else if c = 'Z' then '\x1a'
  else c

/-- Reads the text of a literal behind its opening quote, and its closing quote. -/
def literalText : Reader Char (List Char)
  | [] => none
  | '\'' :: _ => some ([], .tail)
  | '\\' :: c :: cs =>
    (literalText cs).map fun (text, rest) => (unescapeChar c :: text, rest.later.later)
  | c :: cs => (literalText cs).map fun (text, rest) => (c :: text, rest.later)

/-- The text that a literal stands for behind its opening quote, and what stands behind its closing
quote. -/
def readLiteral? (cs : List Char) : Option (List Char × List Char) :=
  (literalText cs).map fun (text, rest) => (text, rest.1)

theorem readLiteral?_of_reads {cs text rest : List Char} (h : Reads literalText cs text rest) :
    readLiteral? cs = some (text, rest) := by
  obtain ⟨_, hread⟩ := h
  rw [readLiteral?, hread]
  rfl

/-- Inside of a literal the characters are read as the text, whatever stands behind them. -/
def ReadAs (cs text : List Char) : Prop :=
  ∀ ⦃rest after behind⦄, Reads literalText rest after behind →
    Reads literalText (cs ++ rest) (text ++ after) behind

namespace ReadAs

theorem nil : ReadAs [] [] := fun _ _ _ h => h

theorem append {cs ds text after : List Char} (hc : ReadAs cs text) (hd : ReadAs ds after) :
    ReadAs (cs ++ ds) (text ++ after) := fun _ _ _ h => by
  rw [List.append_assoc, List.append_assoc]
  exact hc (hd h)

theorem char {c : Char} (h : IsUnquoted c) : ReadAs [c] [c] := by
  rintro rest after behind ⟨hlt, hread⟩
  obtain ⟨hquote, hescape⟩ := h
  refine ⟨hlt.trans (Nat.lt_succ_self _), ?_⟩
  change literalText (c :: rest) = _
  -- Neither the clause for a closing quote nor that for a backslash applies.
  rw [literalText, hread]
  · rfl
  · exact hquote
  · rintro d cs rfl
    exact absurd rfl hescape

theorem escaped (c : Char) : ReadAs ['\\', c] [unescapeChar c] := by
  rintro rest after behind ⟨hlt, hread⟩
  refine ⟨hlt.trans ((Nat.lt_succ_self _).trans (Nat.lt_succ_self _)), ?_⟩
  change literalText ('\\' :: c :: rest) = _
  rw [literalText, hread]
  rfl

theorem of_unquoted : ∀ {cs : List Char}, (∀ c ∈ cs, IsUnquoted c) → ReadAs cs cs
  | [], _ => nil
  | _ :: _, h =>
    have ⟨hc, hcs⟩ := List.forall_mem_cons.mp h
    (char hc).append (of_unquoted hcs)

/-- A character that is written with a backslash is read as itself. -/
theorem escapeChar (c : Char) : ReadAs (Dialect.escapeChar c) [c] := by
  unfold Dialect.escapeChar
  split_ifs with _ _ _ _ _ _ _ hquote hescape
  case neg => exact char ⟨hquote, hescape⟩
  all_goals
    subst c
    exact escaped _

theorem flatMap_escapeChar : ∀ cs : List Char, ReadAs (cs.flatMap Dialect.escapeChar) cs
  | [] => nil
  | c :: cs => (escapeChar c).append (flatMap_escapeChar cs)

/-- The first quote behind the characters closes the literal. -/
theorem reads {cs text : List Char} (h : ReadAs cs text) (rest : List Char) :
    Reads literalText (cs ++ '\'' :: rest) text rest := by
  have hclosing : Reads literalText ('\'' :: rest) [] rest := ⟨Nat.lt_succ_self _, rfl⟩
  rw [← List.append_nil text]
  exact h hclosing

end ReadAs

/-- A written text is read up to its closing quote. -/
theorem reads_literalText (text rest : List Char) :
    Reads literalText (text.flatMap escapeChar ++ '\'' :: rest) text rest :=
  (ReadAs.flatMap_escapeChar text).reads rest

/-- A written text is a body between quotes, and this body is what a pattern takes from it. Behind
an opening quote, with texts around it that hold neither quotes nor backslashes, the body is read as
the text that was written, up to the closing quote and no further. -/
theorem readLiteral?_pattern (s before after behind : String)
    (hbefore : ∀ c ∈ before.toList, c ≠ '\'' ∧ c ≠ '\\')
    (hafter : ∀ c ∈ after.toList, c ≠ '\'' ∧ c ≠ '\\') :
    ∃ body, (Argument.quoted (quoteEscaped s)).pattern = some body ∧
      quoteEscaped s = "'" ++ body ++ "'" ∧
      readLiteral? (before ++ body ++ after ++ "'" ++ behind).toList
        = some ((before ++ s ++ after).toList, behind.toList) := by
  refine ⟨String.ofList (s.toList.flatMap escapeChar), Argument.quotedBody?_quote _, ?_, ?_⟩
  · exact String.toList_inj.mp (by simp [quoteEscaped])
  · have hread := ((ReadAs.of_unquoted hbefore).append (.flatMap_escapeChar s.toList)).append
      (.of_unquoted hafter)
    simpa using readLiteral?_of_reads (hread.reads behind.toList)

/-- A quote, what looks like an escaped character, a line end and a backslash at the end, with a
closed pattern and another condition behind it. -/
def trickyText : String :=
  "it's \\n\n\\"

theorem readLiteral?_pattern_trickyText :
    (Argument.quoted (quoteEscaped trickyText)).pattern = some "it\\'s \\\\n\\n\\\\" ∧
    readLiteral? ("^" ++ "it\\'s \\\\n\\n\\\\" ++ "$" ++ "'" ++ " OR 'a'='a'").toList
      = some (("^" ++ trickyText ++ "$").toList, " OR 'a'='a'".toList) := by
  have hbefore : ∀ c ∈ "^".toList, c ≠ '\'' ∧ c ≠ '\\' := by simp
  have hafter : ∀ c ∈ "$".toList, c ≠ '\'' ∧ c ≠ '\\' := by simp
  obtain ⟨body, hbody, -, hread⟩ :=
    readLiteral?_pattern trickyText "^" "$" " OR 'a'='a'" hbefore hafter
  have hwritten : (Argument.quoted (quoteEscaped trickyText)).pattern
      = some "it\\'s \\\\n\\n\\\\" := by decide
  obtain rfl := Option.some.inj (hbody.symm.trans hwritten)
  exact ⟨hbody, hread⟩

end Dialect

end QueryCompiler
