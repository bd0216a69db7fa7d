import Mathlib
import CodeReference.CommandLine.Run

/-!
Arguments that invoke a command. Whatever they are, the values that are read from them count lines
from one and name a file that was found, and the run of the program is the run of the command.
-/
namespace CodeReference.CommandLine

variable {s : Surroundings} {v w : Values} {p : Parameter} {t : Text} {a : Arguments} {c : Command}
  {l : Logging} {settings : Settings} {file : FoundPath} {args : List Text} {debug : Bool}

theorem bind_eq_ok {ε α β : Type} {x : Except ε α} {f : α → Except ε β} {b : β} :
    (x >>= f) = .ok b ↔ ∃ a, x = .ok a ∧ f a = .ok b := by
  cases x <;> simp [bind, Except.bind]

theorem mapError_eq_ok {ε ε' α : Type} {f : ε → ε'} {x : Except ε α} {a : α} :
    x.mapError f = .ok a ↔ x = .ok a := by
  cases x <;> simp [Except.mapError]

/-! ## Values -/

namespace Values

/-- What holds of all values that are read. -/
structure Sound (s : Surroundings) (v : Values) : Prop where
  startLine : ∀ n ∈ v.startLine?, 1 ≤ n
  endLine : ∀ n ∈ v.endLine?, 1 ≤ n
  file : ∀ f ∈ v.file?, s.find? f.path = some f.place

theorem sound_empty (s : Surroundings) (help : Bool) : Sound s { help := help } :=
  ⟨by simp, by simp, by simp⟩

theorem one_le_of_count {n : Nat} (h : count t = .ok n) : 1 ≤ n := by
  unfold count at h
  split at h
  · cases h
  · split at h
    · cases h
    · cases h
      omega

theorem find?_of_find {kind : PathKind} {f : FoundPath} (h : find s kind t = .ok f) :
    s.find? f.path = some f.place := by
  unfold find at h
  split at h
  · cases h
  · cases h
  · cases h
  · rename_i hfind _ _
    cases h
    exact hfind

theorem Sound.set (hv : v.Sound s) (h : v.set s p t = .ok w) : w.Sound s := by
  cases p with
  | file =>
      obtain ⟨f, hf, heq⟩ := bind_eq_ok.1 h
      cases heq
      exact ⟨hv.startLine, hv.endLine, fun g hg => by cases hg; exact find?_of_find hf⟩
  | startLine =>
      obtain ⟨n, hn, heq⟩ := bind_eq_ok.1 h
      cases heq
      exact ⟨fun m hm => by cases hm; exact one_le_of_count hn, hv.endLine, hv.file⟩
  | endLine =>
      obtain ⟨n, hn, heq⟩ := bind_eq_ok.1 h
      cases heq
      exact ⟨hv.startLine, fun m hm => by cases hm; exact one_le_of_count hn, hv.file⟩
  | config | root =>
      obtain ⟨f, -, heq⟩ := bind_eq_ok.1 h
      cases heq
      exact ⟨hv.startLine, hv.endLine, hv.file⟩
  | line | column | endColumn =>
      obtain ⟨n, -, heq⟩ := bind_eq_ok.1 h
      cases heq
      exact ⟨hv.startLine, hv.endLine, hv.file⟩
  | help | debug | inPlace =>
      cases h
      exact hv

theorem Sound.setFlag (hv : v.Sound s) (p : Parameter) (b : Bool) : (v.setFlag p b).Sound s := by
  cases p <;> exact ⟨hv.startLine, hv.endLine, hv.file⟩

theorem Sound.take (hv : v.Sound s) (h : v.take s a p = .ok w) : w.Sound s := by
  unfold Values.take at h
  dsimp only at h
  split at h
  · exact hv.set (mapError_eq_ok.1 h)
  · cases h
    exact hv.setFlag _ _
  · split at h
    · cases h
    · cases h
      exact hv

theorem Sound.foldlM_take (hv : v.Sound s) {ps : List Parameter}
    (h : ps.foldlM (Values.take s a) v = .ok w) : w.Sound s := by
  induction ps generalizing v with
  | nil =>
      cases h
      exact hv
  | cons p ps ih =>
      rw [List.foldlM_cons] at h
      obtain ⟨u, hu, hrest⟩ := bind_eq_ok.1 h
      exact ih (hv.take hu) hrest

theorem sound_of_read {ps : List Parameter} (h : read s ps a = .ok v) : v.Sound s := by
  unfold read at h
  split at h
  · cases h
    exact sound_empty s true
  · exact (sound_empty s false).foldlM_take h

end Values

/-! ## Invocations -/

/-- Arguments that have a command carried out on a file: those of the program, the name of the
command and those of the command. All of them can be read, and none asks for help. -/
inductive Invokes (s : Surroundings) :
    (args : List Text) → Command → Settings → (debug : Bool) → Values → FoundPath → Prop
  | intro {args rest : List Text} {name : Text} {a b : Arguments} {u v : Values} {c : Command}
      {settings : Settings} {file : FoundPath} (hprogram : readProgram s args = .ok (a, u))
      (huHelp : u.help = false) (hoperands : a.operands = name :: rest)
      (hname : Command.ofName? name = some c) (hsettings : loadSettings s u.config? = .ok settings)
      (hcommand : Arguments.read (Options.command c) rest = .ok b)
      (hvalues : Values.read s c.parameters b = .ok v) (hvHelp : v.help = false)
      (hextra : b.operands.drop 1 = []) (hfile : v.file? = some file) :
      Invokes s args c settings u.debug v file

theorem operands_of_readProgram_nil {u : Values} (h : readProgram s [] = .ok (a, u)) :
    a.operands = [] := by
  obtain ⟨b, hb, hrest⟩ := bind_eq_ok.1 h
  obtain ⟨v, -, heq⟩ := bind_eq_ok.1 hrest
  cases heq
  cases mapError_eq_ok.1 hb
  rfl

theorem runCommand_of_read (readTree : TreeReader) (l : Logging) {rest : List Text} {b : Arguments}
    (hcommand : Arguments.read (Options.command c) rest = .ok b)
    (hvalues : Values.read s c.parameters b = .ok v) (hhelp : v.help = false)
    (hextra : b.operands.drop 1 = []) (hfile : v.file? = some file) :
    runCommand readTree s settings l c rest = c.run readTree s settings l v file := by
  simp only [runCommand, hcommand, Except.mapError, bind, Except.bind, hvalues, pure, Except.pure,
    hhelp, Bool.false_eq_true, if_false, hextra, hfile]

namespace Invokes

theorem sound (h : Invokes s args c settings debug v file) : v.Sound s := by
  cases h with
  | intro _ _ _ _ _ _ hvalues _ _ _ => exact Values.sound_of_read hvalues

theorem file?_eq (h : Invokes s args c settings debug v file) : v.file? = some file := by
  cases h with
  | intro _ _ _ _ _ _ _ _ _ hfile => exact hfile

theorem run_eq (readTree : TreeReader) (l : Logging)
    (h : Invokes s args c settings debug v file) :
    run readTree s l args = c.run readTree s settings (l.setUp debug) v file := by
  cases h with
  | intro hprogram huHelp hoperands hname hsettings hcommand hvalues hvHelp hextra hfile =>
      have hne : args ≠ [] := by
        rintro rfl
        rw [operands_of_readProgram_nil hprogram] at hoperands
        cases hoperands
      rw [run, if_neg (by simpa using hne), hprogram]
      simp only [huHelp, Bool.false_eq_true, if_false, hoperands, runNamed, hname, hsettings]
      exact runCommand_of_read readTree _ hcommand hvalues hvHelp hextra hfile

end Invokes
end CodeReference.CommandLine
