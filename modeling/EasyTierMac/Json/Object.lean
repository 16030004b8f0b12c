import EasyTierMac.Json.RoundTrip

/-!
# Members of objects, and enums as tagged objects

`tagged` is the internally tagged form of an enum: the object of the variant's fields, with
the name of the variant in front. `untag` takes the name from wherever it stands. A field is
read by its name (`required`, `defaulted`); it must not come twice. `sorted` is the object
that a map of ordered keys makes of its members.

Member names that are different are all that a reader needs to find each value again:
`lookup_of_mem`, and `lookup_sortMembers` for an object in another order.
-/

namespace EasyTierMac.Json

variable {α : Type*}

/-! ## Values of the basic types -/

def ofU16 (n : UInt16) : Json := .int n.toNat

def ofU32 (n : UInt32) : Json := .int n.toNat

def ofI32 (n : Int32) : Json := .int n.toInt

def ofOption (write : α → Json) : Option α → Json
  | none => .null
  | some x => write x

def asU16 : Json → Option UInt16
  | .int n => if 0 ≤ n ∧ n < 65536 then some (UInt16.ofNat n.toNat) else none
  | _ => none

def asU32 : Json → Option UInt32
  | .int n => if 0 ≤ n ∧ n < 4294967296 then some (UInt32.ofNat n.toNat) else none
  | _ => none

def asI32 : Json → Option Int32
  | .int n => if -2147483648 ≤ n ∧ n < 2147483648 then some (Int32.ofInt n) else none
  | _ => none

def asBool : Json → Option Bool
  | .bool b => some b
  | _ => none

def asString : Json → Option String
  | .str s => some s
  | _ => none

def asOption (read : Json → Option α) : Json → Option (Option α)
  | .null => some none
  | v => (read v).map some

@[simp] theorem asU16_ofU16 (n : UInt16) : asU16 (ofU16 n) = some n := by
  have hn := n.toNat_lt
  simp only [asU16, ofU16]
  rw [if_pos (by omega), Int.toNat_natCast, UInt16.ofNat_toNat]

@[simp] theorem asU32_ofU32 (n : UInt32) : asU32 (ofU32 n) = some n := by
  have hn := n.toNat_lt
  simp only [asU32, ofU32]
  rw [if_pos (by omega), Int.toNat_natCast, UInt32.ofNat_toNat]

@[simp] theorem asI32_ofI32 (n : Int32) : asI32 (ofI32 n) = some n := by
  have hlo := n.le_toInt
  have hhi := n.toInt_lt
  simp only [asI32, ofI32]
  rw [if_pos (by omega), Int32.ofInt_toInt]

@[simp] theorem asBool_bool (b : Bool) : asBool (.bool b) = some b := rfl

@[simp] theorem asString_str (s : String) : asString (.str s) = some s := rfl

theorem asOption_of_ne_null (read : Json → Option α) {v : Json} (hv : v ≠ .null) :
    asOption read v = (read v).map some := by
  cases v with
  | null => exact absurd rfl hv
  | _ => rfl

/-- Where `write` never gives `null`, an optional value is read back. -/
theorem asOption_ofOption {write : α → Json} {read : Json → Option α}
    (hread : ∀ x, read (write x) = some x) (hnull : ∀ x, write x ≠ .null) (o : Option α) :
    asOption read (ofOption write o) = some o := by
  cases o with
  | none => rfl
  | some x =>
    show asOption read (write x) = _
    rw [asOption_of_ne_null read (hnull x), hread]
    rfl

@[simp] theorem asOption_ofU16 (o : Option UInt16) : asOption asU16 (ofOption ofU16 o) = some o :=
  asOption_ofOption asU16_ofU16 (fun _ h => by cases h) o

@[simp] theorem asOption_ofI32 (o : Option Int32) : asOption asI32 (ofOption ofI32 o) = some o :=
  asOption_ofOption asI32_ofI32 (fun _ h => by cases h) o

theorem exact_ofOption {write : α → Json} (hwrite : ∀ x, Exact (write x)) (o : Option α) :
    Exact (ofOption write o) := by
  cases o with
  | none => trivial
  | some x => exact hwrite x

/-! ## Members by name -/

abbrev names (ms : List (String × Json)) : List String := ms.map Prod.fst

/-- The value of a member, if there is one of that name. It is an error if there are two. -/
def field (name : String) (ms : List (String × Json)) : Option (Option Json) :=
  match ms.filter (·.1 = name) with
  | [] => some none
  | [(_, v)] => some (some v)
  | _ => none

def required (name : String) (read : Json → Option α) (ms : List (String × Json)) : Option α :=
  (field name ms).bind fun
    | some v => read v
    | none => none

/-- `#[serde(default)]`. -/
def defaulted (name : String) (read : Json → Option α) (default : α)
    (ms : List (String × Json)) : Option α :=
  (field name ms).bind fun
    | some v => read v
    | none => some default

theorem filter_of_mem {ms : List (String × Json)} {name : String} {v : Json}
    (hnodup : (names ms).Nodup) (hmem : (name, v) ∈ ms) :
    ms.filter (·.1 = name) = [(name, v)] := by
  induction ms with
  | nil => cases hmem
  | cons m ms ih =>
    obtain ⟨hm, hms⟩ := List.nodup_cons.mp hnodup
    rcases List.mem_cons.mp hmem with rfl | hmem
    · rw [List.filter_cons_of_pos (by simp), List.filter_eq_nil_iff.mpr]
      intro k hk hname
      have hk' : k.1 ∈ names ms := List.mem_map_of_mem hk
      rw [of_decide_eq_true hname] at hk'
      exact hm hk'
    · have hname : name ∈ names ms := List.mem_map_of_mem (f := Prod.fst) hmem
      have hne : m.1 ≠ name := by
        rintro rfl
        exact hm hname
      rw [List.filter_cons_of_neg (by simpa using hne)]
      exact ih hms hmem

theorem filter_of_not_mem {ms : List (String × Json)} {name : String} (h : name ∉ names ms) :
    ms.filter (·.1 = name) = [] := by
  rw [List.filter_eq_nil_iff]
  intro m hm hname
  have hm' : m.1 ∈ names ms := List.mem_map_of_mem hm
  rw [of_decide_eq_true hname] at hm'
  exact h hm'

theorem field_cons_self {ms : List (String × Json)} {name : String} (v : Json)
    (h : name ∉ names ms) : field name ((name, v) :: ms) = some (some v) := by
  unfold field
  rw [List.filter_cons_of_pos (by simp), filter_of_not_mem h]

theorem field_cons_of_ne {ms : List (String × Json)} {name k : String} (v : Json)
    (h : k ≠ name) : field name ((k, v) :: ms) = field name ms := by
  unfold field
  rw [List.filter_cons_of_neg (by simpa using h)]

theorem required_cons_self {ms : List (String × Json)} {name : String} (read : Json → Option α)
    (v : Json) (h : name ∉ names ms) : required name read ((name, v) :: ms) = read v := by
  unfold required
  rw [field_cons_self v h]
  rfl

theorem required_cons_of_ne {ms : List (String × Json)} {name k : String}
    (read : Json → Option α) (v : Json) (h : k ≠ name) :
    required name read ((k, v) :: ms) = required name read ms := by
  unfold required
  rw [field_cons_of_ne v h]

theorem defaulted_cons_self {ms : List (String × Json)} {name : String} (read : Json → Option α)
    (default : α) (v : Json) (h : name ∉ names ms) :
    defaulted name read default ((name, v) :: ms) = read v := by
  unfold defaulted
  rw [field_cons_self v h]
  rfl

theorem defaulted_cons_of_ne {ms : List (String × Json)} {name k : String}
    (read : Json → Option α) (default : α) (v : Json) (h : k ≠ name) :
    defaulted name read default ((k, v) :: ms) = defaulted name read default ms := by
  unfold defaulted
  rw [field_cons_of_ne v h]

/-- The first member of that name. -/
def lookup (name : String) (ms : List (String × Json)) : Option Json :=
  (ms.find? (·.1 = name)).map Prod.snd

theorem lookup_of_mem {ms : List (String × Json)} {name : String} {v : Json}
    (hnodup : (names ms).Nodup) (hmem : (name, v) ∈ ms) : lookup name ms = some v := by
  have hfilter := filter_of_mem hnodup hmem
  unfold lookup
  rw [← List.head?_filter, hfilter]
  rfl

/-! ## Tagged objects -/

def tagged (tag variant : String) (ms : List (String × Json)) : Json :=
  .obj ((tag, .str variant) :: ms)

/-- The variant and the fields of a tagged object. -/
def untag (tag : String) : Json → Option (String × List (String × Json))
  | .obj ms => do
    let variant ← required tag asString ms
    some (variant, ms.filter (·.1 ≠ tag))
  | _ => none

theorem untag_tagged {tag : String} (variant : String) {ms : List (String × Json)}
    (htag : tag ∉ names ms) : untag tag (tagged tag variant ms) = some (variant, ms) := by
  have hne : ∀ m ∈ ms, ¬m.1 = tag := by
    rintro m hm rfl
    exact htag (List.mem_map_of_mem hm)
  have hall : ms.filter (·.1 ≠ tag) = ms := by
    rw [List.filter_eq_self]
    intro m hm
    exact decide_eq_true (hne m hm)
  show (required tag asString ((tag, .str variant) :: ms)).bind _ = _
  rw [required_cons_self asString _ htag]
  show some (variant, ((tag, Json.str variant) :: ms).filter (·.1 ≠ tag)) = _
  rw [List.filter_cons_of_neg (by simp), hall]

/-! ## Objects with sorted keys -/

def insertMember (m : String × Json) : List (String × Json) → List (String × Json)
  | [] => [m]
  | k :: ms =>
    if m.1 < k.1 then m :: k :: ms
    else if m.1 = k.1 then m :: ms
    else k :: insertMember m ms

/-- The members as a map of ordered keys holds them, which were put in one after the other. -/
def sortMembers (ms : List (String × Json)) : List (String × Json) :=
  ms.foldl (fun acc m => insertMember m acc) []

def sorted (ms : List (String × Json)) : Json := .obj (sortMembers ms)

theorem perm_insertMember {m : String × Json} {ms : List (String × Json)} (hm : m.1 ∉ names ms) :
    (insertMember m ms).Perm (m :: ms) := by
  induction ms with
  | nil => exact .refl _
  | cons k ms ih =>
    obtain ⟨hk, hms⟩ := not_or.mp (fun h => hm (List.mem_cons.mpr h))
    unfold insertMember
    by_cases hlt : m.1 < k.1
    · rw [if_pos hlt]
    · rw [if_neg hlt, if_neg hk]
      exact ((ih hms).cons k).trans (.swap m k ms)

theorem perm_foldl_insertMember {ms acc : List (String × Json)}
    (hnodup : (names (ms ++ acc)).Nodup) :
    (ms.foldl (fun acc m => insertMember m acc) acc).Perm (ms ++ acc) := by
  induction ms generalizing acc with
  | nil => exact .refl _
  | cons m ms ih =>
    obtain ⟨hm, hrest⟩ := List.nodup_cons.mp hnodup
    have hacc : m.1 ∉ names acc := by
      intro h
      apply hm
      show m.1 ∈ (ms ++ acc).map Prod.fst
      rw [List.map_append]
      exact List.mem_append_right _ h
    have hins := perm_insertMember hacc
    have hmove : (ms ++ insertMember m acc).Perm (m :: (ms ++ acc)) :=
      (hins.append_left ms).trans List.perm_middle
    exact (ih ((hmove.map Prod.fst).nodup_iff.mpr hnodup)).trans hmove

/-- Members of different names are only put in another order. -/
theorem perm_sortMembers {ms : List (String × Json)} (hnodup : (names ms).Nodup) :
    (sortMembers ms).Perm ms := by
  have hperm : (sortMembers ms).Perm (ms ++ []) :=
    perm_foldl_insertMember (by rwa [List.append_nil])
  rwa [List.append_nil] at hperm

theorem lookup_sortMembers {ms : List (String × Json)} {name : String} {v : Json}
    (hnodup : (names ms).Nodup) (hmem : (name, v) ∈ ms) :
    lookup name (sortMembers ms) = some v := by
  have hperm := perm_sortMembers hnodup
  exact lookup_of_mem ((hperm.map Prod.fst).nodup_iff.mpr hnodup) (hperm.mem_iff.mpr hmem)

theorem exactMembers_iff {ms : List (String × Json)} :
    ExactMembers ms ↔ ∀ m ∈ ms, ExactMember m := by
  induction ms with
  | nil => exact ⟨fun _ _ h => absurd h List.not_mem_nil, fun _ => trivial⟩
  | cons m ms ih =>
    show ExactMember m ∧ ExactMembers ms ↔ _
    rw [ih, List.forall_mem_cons]

theorem exact_sorted {ms : List (String × Json)} (hnodup : (names ms).Nodup)
    (hms : ExactMembers ms) : Exact (sorted ms) := by
  apply exactMembers_iff.mpr
  intro m hm
  exact exactMembers_iff.mp hms m ((perm_sortMembers hnodup).mem_iff.mp hm)

/-! ## The text of an object -/

theorem printMembers_concat (ms : List (String × Json)) :
    ∃ body, printMembers ms = body ++ ['}'] := by
  induction ms with
  | nil => exact ⟨[], rfl⟩
  | cons m ms ih =>
    obtain ⟨body, hbody⟩ := ih
    refine ⟨',' :: (printMember m ++ body), ?_⟩
    show ',' :: (printMember m ++ printMembers ms) = _
    rw [hbody, List.cons_append, List.append_assoc]

/-- The text of an object stands between braces. -/
theorem print_obj (ms : List (String × Json)) :
    ∃ body, print (.obj ms) = '{' :: (body ++ ['}']) := by
  cases ms with
  | nil => exact ⟨[], rfl⟩
  | cons m ms =>
    obtain ⟨body, hbody⟩ := printMembers_concat ms
    refine ⟨printMember m ++ body, ?_⟩
    show '{' :: (printMember m ++ printMembers ms) = _
    rw [hbody, List.append_assoc]

end EasyTierMac.Json
