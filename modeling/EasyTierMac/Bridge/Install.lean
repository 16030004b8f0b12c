import EasyTierMac.Quoting
import EasyTierMac.Rust.Str

/-!
# Installing the supervisor (`install.rs`)

`run_install` and `run_uninstall` run a script as root through one `osascript` prompt. The
command is quoted for the shell, and then escaped for the AppleScript that it stands in.
-/

namespace EasyTierMac.Bridge.Install

open Rust (Text replaceChar trim)

/-- What a finished process has left. -/
structure Output where
  success : Bool
  /-- Its standard error, decoded by `from_utf8_lossy`. -/
  stderr : Text

/-- What the functions see of the machine. -/
structure Host where
  /-- `env!("CARGO_MANIFEST_DIR")`. -/
  manifestDir : Text
  /-- `Path::exists`. -/
  pathExists : Text → Bool
  /-- `getuid`. -/
  uid : UInt32
  /-- `Command::output` of `osascript` with these arguments. -/
  osascript : List Text → Except String Output

/-! ## Paths -/

/-- `Path::join` of one name. -/
def join (dir : Text) (name : String) : Text :=
  if dir = [] ∨ dir.getLast? = some '/' then dir ++ name.toList else dir ++ '/' :: name.toList

variable (host : Host)

def repoRoot : Text := join host.manifestDir ".."

def scriptsDir : Text := join (repoRoot host) "scripts"

def devBin (name : String) : Text := join (join (join (repoRoot host) "target") "debug") name

/-! ## Quoting -/

/-- `shell_quote`. -/
def shellQuote (s : Text) : Text := '\'' :: (replaceChar '\'' "'\\''".toList s ++ ['\''])

/-- `applescript_escape`: the backslash first, then the double quote. -/
def applescriptEscape (s : Text) : Text :=
  replaceChar '"' "\\\"".toList (replaceChar '\\' "\\\\".toList s)

/-- The AppleScript that `run_osascript_admin` runs. -/
def appleScript (rawCmd : Text) : Text :=
  "do shell script \"".toList ++
    (applescriptEscape rawCmd ++ "\" with administrator privileges".toList)

example : shellQuote "it's".toList = "'it'\\''s'".toList := by decide
example : applescriptEscape "a\\b\"c".toList = "a\\\\b\\\"c".toList := by decide

/-- `run_osascript_admin`. -/
def runOsascriptAdmin (rawCmd : Text) : Except String Unit :=
  match host.osascript ["-e".toList, appleScript rawCmd] with
  | .error e => .error ("failed to launch osascript: " ++ e)
  | .ok output =>
    if output.success then .ok ()
    else .error ("privileged command failed: " ++ String.ofList (trim output.stderr))

/-! ## The commands -/

/-- The command of `run_install`. -/
def installCommand (script supervisorBin coreBin : Text) (uid : UInt32) : Text :=
  shellQuote script ++ (" --supervisor-bin ".toList ++ (shellQuote supervisorBin ++
    (" --core-bin ".toList ++ (shellQuote coreBin ++
      (" --owner-uid ".toList ++ Nat.toDigits 10 uid.toNat)))))

/-- `run_install`. -/
def runInstall (supervisorBin coreBin : Option Text) : Except String Unit :=
  let supervisorBin := supervisorBin.getD (devBin host "easytier-supervisor")
  let coreBin := coreBin.getD (join (join (join (join (join (repoRoot host) "vendor") "EasyTier")
    "target") "debug") "easytier-core")
  let script := join (scriptsDir host) "install.sh"
  if !host.pathExists script then
    .error ("install script not found: " ++ String.ofList script)
  else if !host.pathExists supervisorBin then
    .error ("supervisor binary not found: " ++ String.ofList supervisorBin ++ " (build it first)")
  else if !host.pathExists coreBin then
    .error ("core binary not found: " ++ String.ofList coreBin ++ " (build it first)")
  else runOsascriptAdmin host (installCommand script supervisorBin coreBin host.uid)

/-- `run_uninstall`. -/
def runUninstall : Except String Unit :=
  let script := join (scriptsDir host) "uninstall.sh"
  if !host.pathExists script then
    .error ("uninstall script not found: " ++ String.ofList script)
  else runOsascriptAdmin host (shellQuote script)

end EasyTierMac.Bridge.Install
