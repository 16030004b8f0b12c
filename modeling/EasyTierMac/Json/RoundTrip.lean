import EasyTierMac.Json.Text

/-!
# Reading what was printed

`Exact` values have integers only; `print` does not normalise the literal of another number.
Each part of a text is read back with anything after it: a character of a string
(`literalChar_escapeChar`), a string, an integer, and by induction on the fuel a value and
the rest of an array or an object (`Reads`).
-/

namespace EasyTierMac.Json

/-! ## Values with integers only -/

mutual

def Exact : Json → Prop
  | .real _ => False
  | .arr vs => ExactItems vs
  | .obj ms => ExactMembers ms
  | _ => True

def ExactItems : List Json → Prop
  | [] => True
  | v :: vs => Exact v ∧ ExactItems vs

def ExactMember : String × Json → Prop
  | (_, v) => Exact v

def ExactMembers : List (String × Json) → Prop
  | [] => True
  | m :: ms => ExactMember m ∧ ExactMembers ms

end

/-! ## Strings -/

theorem hexVal_hexDigit : ∀ n < 16, hexVal (hexDigit n) = some n := by decide

theorem literalChar_escapeChar (c : Char) (t : List Char) :
    literalChar (escapeChar c ++ t) = some (some c, t) := by
  unfold escapeChar
  split
  next h => subst h; rfl
  split
  next h => subst h; rfl
  split
  next h => subst h; rfl
  split
  next h => subst h; rfl
  split
  next h => subst h; rfl
  split
  next h => subst h; rfl
  split
  next h => subst h; rfl
  split
  next hlt =>
    -- `\u00XX`
    have hhi := hexVal_hexDigit (c.toNat / 16) (by omega)
    have hlo := hexVal_hexDigit (c.toNat % 16) (by omega)
    have hn : ((0 * 16 + 0) * 16 + c.toNat / 16) * 16 + c.toNat % 16 = c.toNat := by omega
    have h4 : hex4 ('0' :: '0' :: hexDigit (c.toNat / 16) :: hexDigit (c.toNat % 16) :: t)
        = some (c.toNat, t) := by
      simp only [hex4, hhi, hlo, show hexVal '0' = some 0 from rfl, Option.bind_eq_bind,
        Option.bind_some, hn]
    have hu : unicode ('0' :: '0' :: hexDigit (c.toNat / 16) :: hexDigit (c.toNat % 16) :: t)
        = some (c, t) := by
      unfold unicode
      rw [h4]
      simp only [Option.bind_eq_bind, Option.bind_some]
      rw [if_neg (by omega), if_neg (by omega), Char.ofNat_toNat]
    show Option.map _
      (unicode ('0' :: '0' :: hexDigit (c.toNat / 16) :: hexDigit (c.toNat % 16) :: t)) = _
    rw [hu]
    rfl
  next hquote hback _ _ _ _ _ hge =>
    show literalChar (c :: t) = _
    rw [literalChar, if_neg hquote, if_neg hback, if_neg hge]

theorem length_escapeChar_pos (c : Char) : 0 < (escapeChar c).length := by
  rw [List.length_pos_iff]
  intro h
  have hc := literalChar_escapeChar c []
  rw [h] at hc
  cases hc

theorem literal_escape (s t : List Char) {fuel : Nat} (hfuel : s.length < fuel) :
    literal fuel (s.flatMap escapeChar ++ '"' :: t) = some (s, t) := by
  induction s generalizing fuel with
  | nil =>
    obtain ⟨fuel, rfl⟩ : ∃ n, fuel = n + 1 := ⟨fuel - 1, by omega⟩
    rfl
  | cons c s ih =>
    obtain ⟨fuel, rfl⟩ : ∃ n, fuel = n + 1 := ⟨fuel - 1, by omega⟩
    have hs : s.length < fuel := Nat.lt_of_succ_lt_succ hfuel
    rw [List.flatMap_cons, List.append_assoc, literal, literalChar_escapeChar]
    simp only [Option.bind_eq_bind, Option.bind_some, ih hs]

theorem length_le_flatMap_escape (s : List Char) :
    s.length ≤ (s.flatMap escapeChar).length := by
  induction s with
  | nil => exact Nat.le_refl 0
  | cons c s ih =>
    have hc := length_escapeChar_pos c
    rw [List.flatMap_cons, List.length_append, List.length_cons]
    omega

/-- A string is read back after its opening quote. -/
theorem string_escape (s : String) (t : List Char) :
    string (s.toList.flatMap escapeChar ++ '"' :: t) = some (s, t) := by
  have hlen := length_le_flatMap_escape s.toList
  unfold string
  rw [literal_escape s.toList t (by rw [List.length_append, List.length_cons]; omega)]
  simp only [Option.map_some, String.ofList_toList]

/-! ## Integers -/

/-- The text goes on with something that does not belong to a number. -/
def EndsNumber : List Char → Prop
  | [] => True
  | c :: _ => c.isDigit = false ∧ c ≠ '.' ∧ c ≠ 'e' ∧ c ≠ 'E'

theorem takeWhile_digits {ds t : List Char} (hds : ∀ c ∈ ds, c.isDigit = true)
    (ht : EndsNumber t) :
    (ds ++ t).takeWhile Char.isDigit = ds ∧ (ds ++ t).dropWhile Char.isDigit = t := by
  have hstop : t.takeWhile Char.isDigit = [] ∧ t.dropWhile Char.isDigit = t := by
    cases t with
    | nil => exact ⟨rfl, rfl⟩
    | cons c t =>
      have hc : c.isDigit = false := ht.1
      rw [List.takeWhile_cons_of_neg (by rw [hc]; decide),
        List.dropWhile_cons_of_neg (by rw [hc]; decide)]
      exact ⟨rfl, rfl⟩
  constructor
  · rw [List.takeWhile_append_of_pos hds, hstop.1, List.append_nil]
  · rw [List.dropWhile_append_of_pos hds, hstop.2]

theorem digits_append {ds t : List Char} (hne : ds ≠ []) (hds : ∀ c ∈ ds, c.isDigit = true)
    (ht : EndsNumber t) : digits (ds ++ t) = some (ds, t) := by
  obtain ⟨htake, hdrop⟩ := takeWhile_digits hds ht
  unfold digits
  rw [htake, hdrop, if_neg hne]

theorem fraction_of_endsNumber {t : List Char} (ht : EndsNumber t) : fraction t = some ([], t) := by
  unfold fraction
  split
  next => exact absurd rfl ht.2.1
  next => rfl

theorem exponent_of_endsNumber {t : List Char} (ht : EndsNumber t) : exponent t = some ([], t) := by
  cases t with
  | nil => rfl
  | cons c t =>
    rw [exponent, if_neg]
    intro h
    exact h.elim ht.2.2.1 ht.2.2.2

theorem isDigit_of_mem_toDigits {n : Nat} {c : Char} (hc : c ∈ Nat.toDigits 10 n) :
    c.isDigit = true :=
  Nat.isDigit_of_mem_toDigits (by decide) (by decide) hc

theorem head_toDigits (n : Nat) (h : (Nat.toDigits 10 n).head? = some '0') : n = 0 := by
  induction n using Nat.strongRecOn with
  | ind n ih =>
    by_cases hn : n < 10
    · rw [Nat.toDigits_of_lt_base hn, List.head?_cons, Option.some.injEq] at h
      exact Nat.digitChar_eq_zero.mp h
    · obtain ⟨d, ds, hd⟩ :=
        List.exists_cons_of_ne_nil (Nat.toDigits_ne_nil (n := n / 10) (b := 10))
      have hhead : (Nat.toDigits 10 n).head? = (Nat.toDigits 10 (n / 10)).head? := by
        rw [Nat.toDigits_of_base_le (by decide) (by omega), hd]
        rfl
      rw [hhead] at h
      have h0 := ih (n / 10) (by omega) h
      omega

theorem unsigned_toDigits (minus : List Char) {n : Nat} {t : List Char} (ht : EndsNumber t)
    (hn : minus ≠ [] → n ≠ 0) :
    unsigned minus (Nat.toDigits 10 n ++ t)
      = some (.int (if minus = [] then (n : Int) else -n), t) := by
  have hzero : Nat.toDigits 10 n = ['0'] → n = 0 := fun h => head_toDigits n (by rw [h]; rfl)
  have hlead : ¬((Nat.toDigits 10 n).head? = some '0' ∧ Nat.toDigits 10 n ≠ ['0']) := by
    rintro ⟨h0, hne⟩
    apply hne
    rw [head_toDigits n h0]
    rfl
  have hminus : ¬(minus ≠ [] ∧ Nat.toDigits 10 n = ['0']) := fun h => hn h.1 (hzero h.2)
  unfold unsigned
  rw [digits_append Nat.toDigits_ne_nil (fun c hc => isDigit_of_mem_toDigits hc) ht]
  simp only [Option.bind_eq_bind, Option.bind_some, if_neg hlead, fraction_of_endsNumber ht,
    exponent_of_endsNumber ht, Nat.ofDigitChars_ten_toDigits]
  rw [if_pos ⟨trivial, trivial, hminus⟩]

theorem number_printInt (n : Int) {t : List Char} (ht : EndsNumber t) :
    number (printInt n ++ t) = some (.int n, t) := by
  unfold printInt
  by_cases hn : n < 0
  · rw [if_pos hn]
    show unsigned ['-'] (Nat.toDigits 10 n.natAbs ++ t) = _
    rw [unsigned_toDigits ['-'] ht (fun _ => by omega), if_neg (List.cons_ne_nil _ _)]
    congr 3
    omega
  · rw [if_neg hn]
    have hnum : number (Nat.toDigits 10 n.natAbs ++ t)
        = unsigned [] (Nat.toDigits 10 n.natAbs ++ t) := by
      unfold number
      split
      next r hr =>
        -- no digit is a minus sign
        obtain ⟨d, ds, hd⟩ :=
          List.exists_cons_of_ne_nil (Nat.toDigits_ne_nil (n := n.natAbs) (b := 10))
        have hdigit : d.isDigit = true :=
          isDigit_of_mem_toDigits (by rw [hd]; exact List.mem_cons_self)
        rw [hd] at hr
        cases hr
        cases hdigit
      next => rfl
    rw [hnum, unsigned_toDigits [] ht (fun h => absurd rfl h), if_pos rfl]
    congr 3
    omega

/-- How the text of an integer starts. -/
theorem printInt_cons (n : Int) :
    ∃ c t, printInt n = c :: t ∧ (c = '-' ∨ c.isDigit = true) := by
  unfold printInt
  split
  next => exact ⟨'-', _, rfl, .inl rfl⟩
  next =>
    obtain ⟨d, ds, hd⟩ := List.exists_cons_of_ne_nil (Nat.toDigits_ne_nil (n := n.natAbs) (b := 10))
    exact ⟨d, ds, hd, .inr (isDigit_of_mem_toDigits (by rw [hd]; exact List.mem_cons_self))⟩

/-! ## Values -/

/-- How the text of a value starts: no blank, and neither the end of an array nor of an
object. -/
theorem print_cons {v : Json} (hv : Exact v) :
    ∃ c t, print v = c :: t ∧ isBlank c = false ∧ c ≠ ']' ∧ c ≠ '}' := by
  cases v with
  | null => exact ⟨_, _, rfl, by decide⟩
  | bool b => cases b <;> exact ⟨_, _, rfl, by decide⟩
  | int n =>
    obtain ⟨c, t, hc, hstart⟩ := printInt_cons n
    refine ⟨c, t, hc, ?_⟩
    rcases hstart with rfl | hdigit
    · decide
    · refine ⟨?_, ?_, ?_⟩
      · unfold isBlank
        simp only [Bool.or_eq_false_iff, decide_eq_false_iff_not]
        refine ⟨⟨⟨?_, ?_⟩, ?_⟩, ?_⟩ <;> (rintro rfl; cases hdigit)
      · rintro rfl
        cases hdigit
      · rintro rfl
        cases hdigit
  | real literal => exact hv.elim
  | str s => exact ⟨_, _, rfl, by decide⟩
  | arr vs =>
    cases vs with
    | nil => exact ⟨_, _, rfl, by decide⟩
    | cons v vs => exact ⟨'[', print v ++ printItems vs, rfl, by decide⟩
  | obj ms =>
    cases ms with
    | nil => exact ⟨_, _, rfl, by decide⟩
    | cons m ms => exact ⟨'{', printMember m ++ printMembers ms, rfl, by decide⟩

theorem skip_cons {c : Char} (hc : isBlank c = false) (t : List Char) :
    skip (c :: t) = c :: t := by
  unfold skip
  rw [List.dropWhile_cons_of_neg]
  rw [hc]
  decide

/-- With this much fuel, the parts of a text are read back. -/
structure Reads (fuel : Nat) : Prop where
  value : ∀ {v : Json} (t : List Char), Exact v → (print v).length ≤ fuel → EndsNumber t →
    value fuel (print v ++ t) = some (v, t)
  items : ∀ {vs : List Json} (t : List Char), ExactItems vs → (printItems vs).length ≤ fuel →
    items fuel (printItems vs ++ t) = some (vs, t)
  member : ∀ {m : String × Json} (t : List Char), ExactMember m →
    (printMember m).length ≤ fuel → EndsNumber t →
      member fuel (printMember m ++ t) = some (m, t)
  members : ∀ {ms : List (String × Json)} (t : List Char), ExactMembers ms →
    (printMembers ms).length ≤ fuel → members fuel (printMembers ms ++ t) = some (ms, t)

theorem endsNumber_printItems (vs : List Json) (t : List Char) :
    EndsNumber (printItems vs ++ t) := by
  cases vs with
  | nil => exact ⟨by decide, by decide, by decide, by decide⟩
  | cons v vs => exact ⟨by decide, by decide, by decide, by decide⟩

theorem endsNumber_printMembers (ms : List (String × Json)) (t : List Char) :
    EndsNumber (printMembers ms ++ t) := by
  cases ms with
  | nil => exact ⟨by decide, by decide, by decide, by decide⟩
  | cons m ms => exact ⟨by decide, by decide, by decide, by decide⟩

/-- An array that is not empty. -/
theorem value_array (fuel : Nat) {c : Char} (r : List Char) (hblank : isBlank c = false)
    (hc : c ≠ ']') :
    value (fuel + 1) ('[' :: c :: r)
      = (do let (v, t) ← value fuel (c :: r)
            let (vs, t) ← items fuel t
            some (.arr (v :: vs), t)) := by
  rw [value, skip_cons (by decide)]
  dsimp only
  rw [if_neg (by decide), if_neg (by decide), if_pos rfl, skip_cons hblank]
  split
  next heq => exact absurd (List.cons.inj heq).1 hc
  next => rfl

/-- An object that is not empty. -/
theorem value_object (fuel : Nat) {c : Char} (r : List Char) (hblank : isBlank c = false)
    (hc : c ≠ '}') :
    value (fuel + 1) ('{' :: c :: r)
      = (do let (m, t) ← member fuel (c :: r)
            let (ms, t) ← members fuel t
            some (.obj (m :: ms), t)) := by
  rw [value, skip_cons (by decide)]
  dsimp only
  rw [if_neg (by decide), if_neg (by decide), if_neg (by decide), if_pos rfl, skip_cons hblank]
  split
  next heq => exact absurd (List.cons.inj heq).1 hc
  next => rfl

namespace Reads

variable {fuel : Nat}

theorem value_succ (hR : Reads fuel) {v : Json} (t : List Char) (hv : Exact v)
    (hlen : (print v).length ≤ fuel + 1) (ht : EndsNumber t) :
    Json.value (fuel + 1) (print v ++ t) = some (v, t) := by
  cases v with
  | null => rfl
  | bool b => cases b <;> rfl
  | int n =>
    obtain ⟨c, r, hc, hstart⟩ := printInt_cons n
    have hprint : print (.int n) = c :: r := hc
    obtain ⟨c', r', hc', hblank, -, -⟩ := print_cons hv
    rw [hprint] at hc'
    cases hc'
    have hnum := number_printInt n ht
    rw [hc] at hnum
    rw [hprint, List.cons_append, Json.value, skip_cons hblank]
    dsimp only
    rw [if_pos hstart]
    exact hnum
  | real literal => exact hv.elim
  | str s =>
    have hs := string_escape s t
    show Option.map _ (string (s.toList.flatMap escapeChar ++ ['"'] ++ t)) = _
    rw [List.append_assoc, List.singleton_append, hs]
    rfl
  | arr vs =>
    cases vs with
    | nil => rfl
    | cons v vs =>
      have hlen' : (print v ++ printItems vs).length ≤ fuel := Nat.le_of_succ_le_succ hlen
      rw [List.length_append] at hlen'
      have hread := hR.value (printItems vs ++ t) hv.1 (by omega) (endsNumber_printItems vs t)
      have hrest := hR.items t hv.2 (by omega)
      obtain ⟨c, r, hc, hblank, hclose, -⟩ := print_cons hv.1
      rw [hc, List.cons_append] at hread
      have htext : print (.arr (v :: vs)) ++ t = '[' :: c :: (r ++ (printItems vs ++ t)) := by
        show '[' :: (print v ++ printItems vs ++ t) = _
        rw [hc, List.append_assoc, List.cons_append]
      rw [htext, value_array fuel _ hblank hclose]
      simp only [Option.bind_eq_bind, hread, hrest, Option.bind_some]
  | obj ms =>
    cases ms with
    | nil => rfl
    | cons m ms =>
      obtain ⟨key, v⟩ := m
      have hlen' : (printMember (key, v) ++ printMembers ms).length ≤ fuel :=
        Nat.le_of_succ_le_succ hlen
      rw [List.length_append] at hlen'
      have hread := hR.member (printMembers ms ++ t) hv.1 (by omega) (endsNumber_printMembers ms t)
      have hrest := hR.members t hv.2 (by omega)
      have htext : print (.obj ((key, v) :: ms)) ++ t
          = '{' :: (printMember (key, v) ++ (printMembers ms ++ t)) := by
        show '{' :: (printMember (key, v) ++ printMembers ms ++ t) = _
        rw [List.append_assoc]
      rw [htext]
      -- a member starts with a quote
      refine (value_object fuel _ (by decide) (by decide)).trans ?_
      show (Json.member fuel (printMember (key, v) ++ (printMembers ms ++ t))).bind _ = _
      simp only [Option.bind_eq_bind, hread, hrest, Option.bind_some]

theorem items_succ (hR : Reads fuel) {vs : List Json} (t : List Char) (hvs : ExactItems vs)
    (hlen : (printItems vs).length ≤ fuel + 1) :
    Json.items (fuel + 1) (printItems vs ++ t) = some (vs, t) := by
  cases vs with
  | nil => rfl
  | cons v vs =>
    have hlen' : (print v ++ printItems vs).length ≤ fuel := Nat.le_of_succ_le_succ hlen
    rw [List.length_append] at hlen'
    have hread := hR.value (printItems vs ++ t) hvs.1 (by omega) (endsNumber_printItems vs t)
    have hrest := hR.items t hvs.2 (by omega)
    show (Json.value fuel (print v ++ printItems vs ++ t)).bind _ = _
    rw [List.append_assoc, hread]
    simp only [Option.bind_eq_bind, hrest, Option.bind_some]

theorem member_succ (hR : Reads fuel) {m : String × Json} (t : List Char) (hm : ExactMember m)
    (hlen : (printMember m).length ≤ fuel + 1) (ht : EndsNumber t) :
    Json.member (fuel + 1) (printMember m ++ t) = some (m, t) := by
  obtain ⟨key, v⟩ := m
  have hlen' : (printString key ++ ':' :: print v).length ≤ fuel + 1 := hlen
  rw [List.length_append, List.length_cons] at hlen'
  have hread := hR.value t hm (by omega) ht
  have hkey := string_escape key (':' :: (print v ++ t))
  show (string (key.toList.flatMap escapeChar ++ ['"'] ++ ':' :: print v ++ t)).bind _ = _
  rw [List.append_assoc, List.append_assoc, List.singleton_append, List.cons_append, hkey,
    Option.bind_some]
  show (Json.value fuel (print v ++ t)).bind _ = _
  rw [hread, Option.bind_some]

theorem members_succ (hR : Reads fuel) {ms : List (String × Json)} (t : List Char)
    (hms : ExactMembers ms) (hlen : (printMembers ms).length ≤ fuel + 1) :
    Json.members (fuel + 1) (printMembers ms ++ t) = some (ms, t) := by
  cases ms with
  | nil => rfl
  | cons m ms =>
    have hlen' : (printMember m ++ printMembers ms).length ≤ fuel := Nat.le_of_succ_le_succ hlen
    rw [List.length_append] at hlen'
    have hread := hR.member (printMembers ms ++ t) hms.1 (by omega) (endsNumber_printMembers ms t)
    have hrest := hR.members t hms.2 (by omega)
    show (Json.member fuel (printMember m ++ printMembers ms ++ t)).bind _ = _
    rw [List.append_assoc, hread]
    simp only [Option.bind_eq_bind, hrest, Option.bind_some]

end Reads

theorem length_printItems_pos (vs : List Json) : 0 < (printItems vs).length := by
  cases vs with
  | nil => exact Nat.one_pos
  | cons v vs => exact Nat.succ_pos _

theorem length_printMembers_pos (ms : List (String × Json)) : 0 < (printMembers ms).length := by
  cases ms with
  | nil => exact Nat.one_pos
  | cons m ms => exact Nat.succ_pos _

theorem reads (fuel : Nat) : Reads fuel := by
  induction fuel with
  | zero =>
    refine ⟨fun t hv hlen _ => ?_, fun {vs} t _ hlen => ?_, fun {m} t _ hlen _ => ?_,
      fun {ms} t _ hlen => ?_⟩
    · obtain ⟨c, r, hc, -⟩ := print_cons hv
      rw [hc] at hlen
      cases hlen
    · exact absurd (length_printItems_pos vs) (by omega)
    · obtain ⟨key, v⟩ := m
      exact absurd hlen (Nat.not_succ_le_zero _)
    · exact absurd (length_printMembers_pos ms) (by omega)
  | succ fuel ih => exact ⟨ih.value_succ, ih.items_succ, ih.member_succ, ih.members_succ⟩

/-- **Round trip.** A value with integers only is read back from its text. -/
theorem parse_print {v : Json} (hv : Exact v) : parse (print v) = some v := by
  have hread := (reads (print v).length).value [] hv (Nat.le_refl _) trivial
  rw [List.append_nil] at hread
  unfold parse
  rw [hread]
  rfl

/-! ## No control characters -/

/-- The text has no control character, so that it is one line. -/
def Printable (t : List Char) : Prop := ∀ c ∈ t, 0x20 ≤ c.toNat

theorem Printable.append {t u : List Char} (ht : Printable t) (hu : Printable u) :
    Printable (t ++ u) := by
  intro c hc
  exact (List.mem_append.mp hc).elim (ht c) (hu c)

theorem Printable.cons {c : Char} {t : List Char} (hc : 0x20 ≤ c.toNat) (ht : Printable t) :
    Printable (c :: t) := by
  intro d hd
  rcases List.mem_cons.mp hd with rfl | hd
  · exact hc
  · exact ht d hd

instance (t : List Char) : Decidable (Printable t) :=
  decidable_of_iff (t.all (0x20 ≤ ·.toNat)) (by simp [Printable])

theorem printable_escapeChar (c : Char) : Printable (escapeChar c) := by
  have hdigit : ∀ n < 16, 0x20 ≤ (hexDigit n).toNat := by decide
  unfold escapeChar
  split
  next => decide
  split
  next => decide
  split
  next => decide
  split
  next => decide
  split
  next => decide
  split
  next => decide
  split
  next => decide
  split
  next hlt =>
    have hhi := hdigit (c.toNat / 16) (by omega)
    have hlo := hdigit (c.toNat % 16) (by omega)
    have hhead : Printable ['\\', 'u', '0', '0'] := by decide
    exact hhead.append (.cons hhi (.cons hlo (by decide)))
  next hge => exact .cons (Nat.le_of_not_lt hge) (by decide)

theorem printable_printString (s : String) : Printable (printString s) := by
  have hbody : Printable (s.toList.flatMap escapeChar) := by
    intro c hc
    obtain ⟨d, -, hd⟩ := List.mem_flatMap.mp hc
    exact printable_escapeChar d c hd
  exact .cons (by decide) (hbody.append (by decide))

theorem printable_printInt (n : Int) : Printable (printInt n) := by
  have hdigits : Printable (Nat.toDigits 10 n.natAbs) := by
    intro c hc
    have hdigit := isDigit_of_mem_toDigits hc
    simp only [Char.isDigit, Bool.and_eq_true, decide_eq_true_eq, ge_iff_le,
      UInt32.le_iff_toNat_le] at hdigit
    have hlo : 48 ≤ c.toNat := hdigit.1
    omega
  unfold printInt
  split
  next => exact .cons (by decide) hdigits
  next => exact hdigits

mutual

theorem printable_print : ∀ {v : Json}, Exact v → Printable (print v)
  | .null, _ => by decide
  | .bool true, _ => by decide
  | .bool false, _ => by decide
  | .int n, _ => printable_printInt n
  | .real _, hv => hv.elim
  | .str s, _ => printable_printString s
  | .arr [], _ => by decide
  | .arr (_ :: _), hv =>
    .cons (by decide) ((printable_print hv.1).append (printable_printItems hv.2))
  | .obj [], _ => by decide
  | .obj (_ :: _), hv =>
    .cons (by decide) ((printable_printMember hv.1).append (printable_printMembers hv.2))

theorem printable_printItems : ∀ {vs : List Json}, ExactItems vs → Printable (printItems vs)
  | [], _ => by decide
  | _ :: _, hvs => .cons (by decide) ((printable_print hvs.1).append (printable_printItems hvs.2))

theorem printable_printMember : ∀ {m : String × Json}, ExactMember m → Printable (printMember m)
  | (key, _), hm => (printable_printString key).append (.cons (by decide) (printable_print hm))

theorem printable_printMembers :
    ∀ {ms : List (String × Json)}, ExactMembers ms → Printable (printMembers ms)
  | [], _ => by decide
  | _ :: _, hms =>
    .cons (by decide) ((printable_printMember hms.1).append (printable_printMembers hms.2))

end

end EasyTierMac.Json
