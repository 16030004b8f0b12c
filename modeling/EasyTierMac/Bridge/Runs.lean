import EasyTierMac.Bridge.Moves
import EasyTierMac.Bridge.Rpc

/-!
# Runs of the client

Concrete runs evaluate: `exists_reachableBy` turns one into a reachable state. `Trial`
has a codec that knows a few lines as the real one does, and the actions that lead into
a session.
-/

namespace EasyTierMac.Bridge

open Transition (System)
open Rust (Text)

/-- A run that evaluates to a state passing the test `p` reaches such a state. -/
theorem exists_reachableBy (env : ClientEnv) (P : Client → Action → Prop) [∀ s a, Decidable (P s a)]
    (l : List Action) (p : Client → Bool)
    (h : (System.runBy (step env) P (.init env) l).any p = true) :
    ∃ s, (client env).ReachableBy P s ∧ p s = true :=
  System.exists_reachableBy_of_runBy h

/-- A run and its continuation that evaluate to states passing the test `p`. -/
theorem exists_reachable_path (env : ClientEnv) (l l' : List Action) (p : Client → Client → Bool)
    (h : ((System.runBy (step env) (fun _ _ => True) (.init env) l).bind fun s =>
      (System.runBy (step env) (fun _ _ => True) s l').map (Prod.mk s)).any
        (fun q => p q.1 q.2) = true) :
    ∃ s s', (client env).Reachable s ∧ (client env).PathBy (fun _ _ => True) s s' ∧
      p s s' = true :=
  System.exists_reachableBy_pathBy_of_runBy h

namespace Trial

/-- The reply to a hello. -/
def helloText : Text :=
  ['{', '"', 'e', 'v', 'e', 'n', 't', '"', ':', '"', 'h', 'e', 'l', 'l', 'o', '"', ',',
    '"', 'p', 'r', 'o', 't', 'o', '"', ':', '1', ',',
    '"', 'c', 'o', 'r', 'e', '"', ':', '"', 's', 't', 'o', 'p', 'p', 'e', 'd', '"', '}']

def busyText : Text :=
  ['{', '"', 'e', 'v', 'e', 'n', 't', '"', ':', '"', 'b', 'u', 's', 'y', '"', ',',
    '"', 'o', 'w', 'n', 'e', 'r', '"', ':', 't', 'r', 'u', 'e', '}']

def kickedText : Text :=
  ['{', '"', 'e', 'v', 'e', 'n', 't', '"', ':', '"', 'k', 'i', 'c', 'k', 'e', 'd', '"', '}']

/-- The line of a text of ASCII characters. -/
def line (t : Text) : List UInt8 := t.map (fun ch => UInt8.ofNat ch.toNat) ++ [10]

def codec : Codec where
  toString
    | .hello _ takeover => "\x7b\"cmd\":\"hello\",\"proto\":1,\"takeover\":".toList ++
        (if takeover then "true\x7d".toList else "false\x7d".toList)
    | .start => "\x7b\"cmd\":\"start\"\x7d".toList
    | .status => "\x7b\"cmd\":\"status\"\x7d".toList
    | .stop => "\x7b\"cmd\":\"stop\"\x7d".toList
  fromStr t :=
    if t = helloText then .ok (.hello 1 "" .stopped none)
    else if t = busyText then .ok (.busy true)
    else if t = kickedText then .ok .kicked
    else .error "unexpected line"

def env : ClientEnv := ⟨{}, codec⟩

/-- The supervisor answers the hello with this line. -/
def attempt (reply : Text) : List Action :=
  [.connect true, .hello true, .arrive (line reply), .fill (line reply).length, .poll]

/-- The client connects and enters its session. -/
def connected : List Action := attempt helloText

/-- The crates, on a text that is not TOML. -/
def easytier : Easytier where
  TomlConfigLoader := Unit
  NetworkConfig := Unit
  newFromStr _ := .error "failed to parse config file: ["
  getId _ := 0
  newFromConfig _ := .ok ()
  tomlError _ := some "TOML parse error at line 1, column 2"

end Trial

end EasyTierMac.Bridge
