import Rulebook.Proofs.Grammar.StatementStep

/-!
# The reader accepts exactly the grammar

Completeness follows each derivation through the states of the reader, and soundness reads a
derivation off the state that a run ends in. Since the reader is a function, the grammar gives no
tokens two meanings.
-/

namespace Rulebook

open Grammar

/-- The grammar derives a file just if its tokens lead the reader to an end. -/
theorem derives_iff_leads {tokens : Tokens} {program : Program} :
    Derives .file tokens program ↔
      ∃ last, Leads Parser.step {} tokens last ∧ last.finish? = some program := by
  constructor
  · intro derivation
    exact follows_of_derives derivation
  · rintro ⟨last, run, finished⟩
    exact derives_of_leads run finished

/-- The reader takes tokens in one way only, and so the grammar derives one program at most. -/
theorem derives_unique {tokens : Tokens} {first second : Program}
    (firstDerives : Derives .file tokens first) (secondDerives : Derives .file tokens second) :
    first = second := by
  have firstRun : Parser.run 0 {} 0 tokens = .ok first :=
    Parser.run_eq_ok_iff.mpr (derives_iff_leads.mp firstDerives)
  have secondRun : Parser.run 0 {} 0 tokens = .ok second :=
    Parser.run_eq_ok_iff.mpr (derives_iff_leads.mp secondDerives)
  rw [firstRun] at secondRun
  exact Except.ok.inj secondRun

theorem Program.ofSource_eq_ok_iff {source : String} {program : Program} :
    Program.ofSource source = .ok program ↔
      ∃ tokens, tokenize source = .ok tokens ∧ Derives .file tokens program := by
  rw [Program.ofSource]
  cases tokenize source with
  | error fault => simp
  | ok tokens => simp [Program.ofTokens, Parser.run_eq_ok_iff, derives_iff_leads]

/-- Tokens are read as a program just if the grammar derives them with it, and it is the only
program that the grammar gives for them. -/
theorem Program.ofTokens_exact (length : Nat) (tokens : Tokens) :
    (∀ program, Program.ofTokens length tokens = .ok program ↔ Derives .file tokens program) ∧
      ∀ first second, Derives .file tokens first → Derives .file tokens second →
        first = second := by
  refine ⟨?_, fun first second => derives_unique⟩
  intro program
  rw [Program.ofTokens, Parser.run_eq_ok_iff, derives_iff_leads]

/-- The line `x is not y ** -z`: two words are one relation, and a sign may stand after a power. -/
theorem Program.ofTokens_exact_notSame :
    let tokens : Tokens :=
      [⟨.name "x", ⟨0, 1⟩⟩, ⟨.keyword .isKw, ⟨2, 4⟩⟩, ⟨.keyword .notKw, ⟨5, 8⟩⟩,
        ⟨.name "y", ⟨9, 10⟩⟩, ⟨.symbol .starStar, ⟨11, 13⟩⟩, ⟨.symbol .minus, ⟨14, 15⟩⟩,
        ⟨.name "z", ⟨15, 16⟩⟩, ⟨.newline, ⟨16, 16⟩⟩]
    let power : Expr :=
      .arithmetic ⟨9, 16⟩ .pow (.name ⟨9, 10⟩ "y")
        (.signed ⟨14, 16⟩ .negative (.name ⟨15, 16⟩ "z"))
    let program : Program :=
      ⟨[.expr ⟨0, 16⟩ (.compare ⟨0, 16⟩ (.name ⟨0, 1⟩ "x") [(.notSame, power)])]⟩
    Derives .file tokens program ∧ ∀ other, Derives .file tokens other → other = program := by
  intro tokens power program
  have exactly := Program.ofTokens_exact 16 tokens
  have derivation : Derives .file tokens program := (exactly.1 program).mp rfl
  exact ⟨derivation, fun other otherDerives => exactly.2 other program otherDerives derivation⟩

end Rulebook
