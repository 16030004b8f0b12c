import EasyTierMac.Rust.Words

/-!
# Conflict detection (`conflict.rs`)

`classify` looks for cores that the supervisor does not manage and for VPNs with a TUN device
among the lines that `ps` prints, and keeps the command lines that it finds.
-/

namespace EasyTierMac.Bridge.Conflict

open Rust

/-- The supervisor-managed core path; anything else is "unmanaged". -/
def MANAGED_CORE : Text := "/Library/Application Support/EasyTier/bin/easytier-core".toList

structure Conflicts where
  /-- An `easytier-core` is running from a path other than the managed one. -/
  unmanagedCore : Bool := false
  unmanagedCoreCmds : List Text := []
  /-- A known TUN VPN process is running (may own the default route). -/
  tunVpn : Bool := false
  tunVpnCmds : List Text := []
  deriving DecidableEq, Repr

/-- `argv[0]` names the core binary. -/
def isCoreArgv0 (argv0 : Text) : Bool :=
  argv0 == "easytier-core".toList || "/easytier-core".toList.isSuffixOf argv0

def isManagedCore (args : Text) : Bool :=
  args == MANAGED_CORE || (MANAGED_CORE ++ [' ']).isPrefixOf args

/-- The names that `is_tun_vpn` knows. -/
def TUN_VPNS : List Text :=
  ["mihomo".toList, "clash".toList, "clash-meta".toList, "clashx".toList, "ClashX".toList,
    "sing-box".toList, "sing_box".toList]

def isTunVpn (argv0 : Text) : Bool := TUN_VPNS.contains (rsplitNext '/' argv0)

/-- The body of the loop of `classify`. -/
def classifyLine (c : Conflicts) (line : Text) : Conflicts :=
  match splitBlank (trimStart line) with
  | (_, none) => c
  | (_pid, some args) =>
    let args := trim args
    let argv0 := firstWord args
    let c := if isCoreArgv0 argv0 && !isManagedCore args then
        { c with unmanagedCore := true, unmanagedCoreCmds := c.unmanagedCoreCmds ++ [args] }
      else c
    if isTunVpn argv0 then
      { c with tunVpn := true, tunVpnCmds := c.tunVpnCmds ++ [args] }
    else c

def classify (lines : List Text) : Conflicts := lines.foldl classifyLine {}

/-- `detect`, with what `ps` prints: nothing where it cannot be run or fails. -/
def detect (stdout : Option Text) : Conflicts :=
  match stdout.map lines with
  | some lines => classify lines
  | none => {}

/-! ## What the predicates say -/

theorem isCoreArgv0_iff {t : Text} :
    isCoreArgv0 t = true ↔ rsplitNext '/' t = "easytier-core".toList := by
  unfold isCoreArgv0
  rw [Bool.or_eq_true, beq_iff_eq, List.isSuffixOf_iff_suffix]
  constructor
  · rintro (rfl | ⟨u, rfl⟩)
    · decide
    · exact rsplitNext_append (by decide) u
  · intro h
    rcases rsplitNext_cases '/' t with ht | ⟨u, ht⟩
    · exact .inl (ht.symm.trans h)
    · rw [h] at ht
      exact .inr ⟨u, ht.symm⟩

/-- The managed core is not found by its first word: there is a blank in its path. -/
theorem isManagedCore_of_core {args : Text} (h : isCoreArgv0 (firstWord args) = true) :
    isManagedCore args = false := by
  have hword (w : Text) : isCoreArgv0 (firstWord (MANAGED_CORE ++ w)) = false := by
    have hsplit : MANAGED_CORE = "/Library/Application".toList ++
        " Support/EasyTier/bin/easytier-core".toList := by decide
    rw [hsplit, List.append_assoc, firstWord_append ⟨'/', by decide, by decide⟩]
    · decide
    · intro c hc
      cases hc
      decide
  by_contra hmanaged
  rw [Bool.not_eq_false] at hmanaged
  unfold isManagedCore at hmanaged
  rw [Bool.or_eq_true, beq_iff_eq, List.isPrefixOf_iff_prefix] at hmanaged
  rcases hmanaged with rfl | ⟨u, rfl⟩
  · rw [← List.append_nil MANAGED_CORE, hword] at h
    cases h
  · rw [List.append_assoc, hword] at h
    cases h

end EasyTierMac.Bridge.Conflict
