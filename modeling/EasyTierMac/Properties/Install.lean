import EasyTierMac.Bridge.Install

/-!
# The privileged command is read as it was written

Two layers of quoting are nested: the shell's, and over it AppleScript's, which escapes the
backslashes and quotes of the first. `literal_applescriptEscape` takes off the outer one,
for any command. `run_shellQuote` takes off the inner one: a quoted path is one word,
whatever is in it. The two together are `install_command_words`.
-/

namespace EasyTierMac.Bridge.Install

open Rust (Text replaceChar)
open Quoting

/-! ## AppleScript -/

/-- Backslash first, then double quote: each character is escaped once. -/
theorem applescriptEscape_eq (s : Text) :
    applescriptEscape s = s.flatMap AppleScript.escapeChar := by
  unfold applescriptEscape replaceChar
  rw [List.flatMap_assoc]
  congr 1
  funext c
  unfold AppleScript.escapeChar
  by_cases hback : c = '\\'
  · rw [if_pos hback, if_pos hback]
    rfl
  by_cases hquote : c = '"'
  · rw [if_neg hback, if_neg hback, if_pos hquote, hquote]
    rfl
  · rw [if_neg hback, if_neg hback, if_neg hquote, List.flatMap_singleton, if_neg hquote]

/-- The literal denotes the command, and ends before the parameters. -/
theorem doShellScript_appleScript (rawCmd : Text) :
    AppleScript.doShellScript (appleScript rawCmd)
      = some (rawCmd, " with administrator privileges".toList) := by
  have hliteral := AppleScript.literal_escape rawCmd " with administrator privileges".toList
  have hend : ¬('\n' ∈ " with administrator privileges".toList ∨
      '\r' ∈ " with administrator privileges".toList) := by decide
  unfold AppleScript.doShellScript appleScript
  rw [List.dropPrefix?_append_of_beq _ BEq.rfl, applescriptEscape_eq]
  show (AppleScript.literal false (rawCmd.flatMap AppleScript.escapeChar ++
    '"' :: " with administrator privileges".toList)).bind _ = _
  rw [hliteral, Option.bind_some]
  exact if_neg hend

/-! ## The shell -/

theorem shellQuote_eq (s : Text) : shellQuote s = Sh.quoteWith s := rfl

/-- The decimal digits of the user id are plain. -/
theorem isPlain_toDigits (n : Nat) : ∀ c ∈ Nat.toDigits 10 n, Sh.isPlain c = true := by
  intro c hc
  have hdigit : c.isDigit = true := Nat.isDigit_of_mem_toDigits (by decide) (by decide) hc
  unfold Sh.isPlain Char.isAlphanum
  rw [hdigit]
  simp

/-- The command of `run_install` is seven words. -/
theorem command_installCommand (script supervisorBin coreBin : Text) (uid : UInt32) :
    Sh.command (installCommand script supervisorBin coreBin uid)
      = some [script, "--supervisor-bin".toList, supervisorBin, "--core-bin".toList, coreBin,
          "--owner-uid".toList, Nat.toDigits 10 uid.toNat] := by
  have hrun : Sh.run .start (installCommand script supervisorBin coreBin uid)
      = some ⟨.bare, ⟨Nat.toDigits 10 uid.toNat, false⟩,
          [⟨script, true⟩, ⟨"--supervisor-bin".toList, false⟩, ⟨supervisorBin, true⟩,
            ⟨"--core-bin".toList, false⟩, ⟨coreBin, true⟩, ⟨"--owner-uid".toList, false⟩]⟩ := by
    have hsup : " --supervisor-bin ".toList = ' ' :: ("--supervisor-bin".toList ++ [' ']) := by
      decide
    have hcore : " --core-bin ".toList = ' ' :: ("--core-bin".toList ++ [' ']) := by decide
    have howner : " --owner-uid ".toList = ' ' :: ("--owner-uid".toList ++ [' ']) := by decide
    unfold installCommand
    rw [shellQuote_eq, shellQuote_eq, shellQuote_eq, hsup, hcore, howner,
      Sh.run_append, Sh.run_quoteWith script (.inl rfl), Option.bind_some,
      Sh.run_append, Sh.run_option (List.all_eq_true.mp rfl) (by decide) rfl, Option.bind_some,
      Sh.run_append, Sh.run_quoteWith supervisorBin (.inl rfl), Option.bind_some,
      Sh.run_append, Sh.run_option (List.all_eq_true.mp rfl) (by decide) rfl, Option.bind_some,
      Sh.run_append, Sh.run_quoteWith coreBin (.inl rfl), Option.bind_some,
      Sh.run_append, Sh.run_option (List.all_eq_true.mp rfl) (by decide) rfl, Option.bind_some,
      Sh.run_plain (isPlain_toDigits uid.toNat) Nat.toDigits_ne_nil (.inl rfl)]
    rfl
  unfold Sh.command Sh.words
  rw [hrun]
  rfl

/-! ## Both layers -/

/-- **The install command.** For all paths and user ids, the AppleScript is one
`do shell script` statement whose literal denotes the command, and the shell reads the
command as the seven words that were meant. -/
theorem install_command_words (script supervisorBin coreBin : Text) (uid : UInt32) :
    AppleScript.doShellScript (appleScript (installCommand script supervisorBin coreBin uid))
        = some (installCommand script supervisorBin coreBin uid,
            " with administrator privileges".toList) ∧
      Sh.command (installCommand script supervisorBin coreBin uid)
        = some [script, "--supervisor-bin".toList, supervisorBin, "--core-bin".toList, coreBin,
            "--owner-uid".toList, Nat.toDigits 10 uid.toNat] :=
  ⟨doShellScript_appleScript _, command_installCommand script supervisorBin coreBin uid⟩

/-- **The uninstall command** is the script alone. -/
theorem uninstall_command_words (script : Text) :
    AppleScript.doShellScript (appleScript (shellQuote script))
        = some (shellQuote script, " with administrator privileges".toList) ∧
      Sh.command (shellQuote script) = some [script] := by
  refine ⟨doShellScript_appleScript _, ?_⟩
  unfold Sh.command Sh.words
  rw [shellQuote_eq, Sh.run_quoteWith script (.inl rfl)]
  rfl

end EasyTierMac.Bridge.Install
