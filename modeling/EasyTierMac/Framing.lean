import Mathlib.Data.List.Basic

/-!
# Frames of a delimited stream

A stream over any alphabet is a sequence of *frames*: words that end with the delimiter
and contain it nowhere else (`IsFrame`). `frames` cuts a stream into its complete
frames and the rest. The cut is the only possible one (`frames_flatten_append`). `accepted`
stops at the first frame that cannot be read, and `Reads` follows it frame by frame
(`Reads.accepted_eq`).

A `Reader` takes a stream apart in pieces of any size. Between two pieces it holds the
part of a frame that it has taken so far, and it can be cut short and forget that part.
As long as it is cut short between frames only (`Whole`), it puts out the frames of the
stream in order, and all of them once everything has been taken (`Faithful.step`,
`Faithful.frames_eq`). A reader that is cut short elsewhere loses the start of a frame and
puts out the rest of it (`Coming.take`).
-/

namespace EasyTierMac.Framing

variable {α : Type*} {d : α}

/-! ## Frames -/

/-- A word that ends with the delimiter and has no other. -/
def IsFrame (d : α) (l : List α) : Prop := ∃ body, d ∉ body ∧ l = body ++ [d]

theorem IsFrame.ne_nil {l : List α} (h : IsFrame d l) : l ≠ [] := by
  obtain ⟨body, -, rfl⟩ := h
  simp

/-- Induction on a frame: the delimiter alone, and a frame with one more element before it. -/
theorem IsFrame.ind {motive : List α → Prop} (delim : motive [d])
    (step : ∀ b f, b ≠ d → motive f → motive (b :: f)) {f : List α} (hf : IsFrame d f) :
    motive f := by
  obtain ⟨body, hbody, rfl⟩ := hf
  induction body with
  | nil => exact delim
  | cons b bs ih =>
    have hb : b ≠ d := fun he => hbody (he ▸ List.mem_cons_self)
    have hbs : d ∉ bs := fun hd => hbody (List.mem_cons_of_mem b hd)
    exact step b _ hb (ih hbs)

/-- What was held of a frame, and the rest of it. -/
theorem IsFrame.append {x l : List α} (hx : d ∉ x) (h : IsFrame d l) : IsFrame d (x ++ l) := by
  obtain ⟨body, hbody, rfl⟩ := h
  refine ⟨x ++ body, ?_, (List.append_assoc ..).symm⟩
  intro hd
  exact (List.mem_append.mp hd).elim hx hbody

variable [DecidableEq α]

/-- Split after the first delimiter, if there is one. -/
def splitAfter (d : α) : List α → Option (List α × List α)
  | [] => none
  | b :: bs => if b = d then some ([b], bs) else (splitAfter d bs).map fun (l, r) => (b :: l, r)

theorem splitAfter_append {xs l r : List α} (ys : List α) (h : splitAfter d xs = some (l, r)) :
    splitAfter d (xs ++ ys) = some (l, r ++ ys) := by
  induction xs generalizing l with
  | nil => cases h
  | cons b bs ih =>
    unfold splitAfter at h
    show splitAfter d (b :: (bs ++ ys)) = _
    unfold splitAfter
    by_cases hb : b = d
    · rw [if_pos hb] at h ⊢
      cases h
      rfl
    · rw [if_neg hb] at h ⊢
      obtain ⟨⟨l', r'⟩, hl, he⟩ := Option.map_eq_some_iff.mp h
      cases he
      rw [ih hl]
      rfl

/-- A stream that starts with a frame is cut after it. -/
theorem splitAfter_frame {f : List α} (hf : IsFrame d f) (xs : List α) :
    splitAfter d (f ++ xs) = some (f, xs) := by
  refine hf.ind (motive := fun f => splitAfter d (f ++ xs) = some (f, xs)) ?_ ?_
  · exact if_pos rfl
  · intro b f hb ih
    show splitAfter d (b :: (f ++ xs)) = _
    rw [splitAfter, if_neg hb, ih]
    rfl

theorem isFrame_of_splitAfter {xs l r : List α} (h : splitAfter d xs = some (l, r)) :
    IsFrame d l ∧ xs = l ++ r := by
  induction xs generalizing l with
  | nil => cases h
  | cons b bs ih =>
    unfold splitAfter at h
    by_cases hb : b = d
    · rw [if_pos hb] at h
      cases h
      exact ⟨⟨[], List.not_mem_nil, by rw [hb]; rfl⟩, rfl⟩
    · rw [if_neg hb] at h
      obtain ⟨⟨l', r'⟩, hl, he⟩ := Option.map_eq_some_iff.mp h
      cases he
      obtain ⟨hf, rfl⟩ := ih hl
      refine ⟨hf.append (x := [b]) ?_, rfl⟩
      rw [List.mem_singleton]
      exact fun he => hb he.symm

theorem not_mem_of_splitAfter {xs : List α} (h : splitAfter d xs = none) : d ∉ xs := by
  induction xs with
  | nil => exact List.not_mem_nil
  | cons b bs ih =>
    unfold splitAfter at h
    by_cases hb : b = d
    · rw [if_pos hb] at h
      cases h
    · rw [if_neg hb, Option.map_eq_none_iff] at h
      intro hd
      exact (List.mem_cons.mp hd).elim (fun he => hb he.symm) (ih h)

/-- One more element in front of a stream that is cut already. -/
def cons (d b : α) : List (List α) × List α → List (List α) × List α
  | (fs, rest) =>
    if b = d then ([b] :: fs, rest)
    else match fs with
      | [] => ([], b :: rest)
      | f :: fs => ((b :: f) :: fs, rest)

/-- The complete frames of a stream, and what follows the last of them. -/
def frames (d : α) : List α → List (List α) × List α
  | [] => ([], [])
  | b :: bs => cons d b (frames d bs)

/-- Without a delimiter there is no frame. -/
theorem frames_of_not_mem {xs : List α} (h : d ∉ xs) : frames d xs = ([], xs) := by
  induction xs with
  | nil => rfl
  | cons b bs ih =>
    have hb : b ≠ d := fun he => h (he ▸ List.mem_cons_self)
    have hbs : d ∉ bs := fun hd => h (List.mem_cons_of_mem b hd)
    rw [frames, ih hbs]
    exact if_neg hb

/-- A stream that starts with a frame. -/
theorem frames_append {f : List α} (hf : IsFrame d f) (xs : List α) :
    frames d (f ++ xs) = (f :: (frames d xs).1, (frames d xs).2) := by
  refine hf.ind (motive := fun f => frames d (f ++ xs) = (f :: (frames d xs).1, (frames d xs).2))
    ?_ ?_
  · exact if_pos rfl
  · intro b f hb ih
    show cons d b (frames d (f ++ xs)) = _
    rw [ih]
    exact if_neg hb

/-- **One cut.** However a stream is written as frames and more, `frames` finds these
frames. -/
theorem frames_flatten_append {fs : List (List α)} (hfs : ∀ f ∈ fs, IsFrame d f) (xs : List α) :
    frames d (fs.flatten ++ xs) = (fs ++ (frames d xs).1, (frames d xs).2) := by
  induction fs with
  | nil => rfl
  | cons f fs ih =>
    have hf := hfs f List.mem_cons_self
    have hrest : ∀ g ∈ fs, IsFrame d g := fun g hg => hfs g (List.mem_cons_of_mem f hg)
    rw [List.flatten_cons, List.append_assoc, frames_append hf, ih hrest]
    rfl

theorem frames_flatten {fs : List (List α)} (hfs : ∀ f ∈ fs, IsFrame d f) :
    frames d fs.flatten = (fs, []) := by
  have h := frames_flatten_append hfs []
  rw [List.append_nil] at h
  rw [h]
  exact Prod.ext (List.append_nil fs) rfl

/-! ## Frames up to the first that is rejected -/

section

variable {β : Type*} {read : List α → Option β}

/-- The frames of a stream that `read` accepts, up to the first that it does not, and the
stream from there on. -/
def acceptedOf (read : List α → Option β) (rest : List α) : List (List α) → List β × List α
  | [] => ([], rest)
  | f :: fs =>
    match read f with
    | some b => (b :: (acceptedOf read rest fs).1, (acceptedOf read rest fs).2)
    | none => ([], f ++ (fs.flatten ++ rest))

def accepted (d : α) (read : List α → Option β) (xs : List α) : List β × List α :=
  acceptedOf read (frames d xs).2 (frames d xs).1

/-- Reading the frames `bs` off the stream `xs` leaves `rest`. -/
inductive Reads (d : α) (read : List α → Option β) : List α → List β → List α → Prop
  | nil {xs : List α} : Reads d read xs [] xs
  | cons {f xs rest : List α} {b : β} {bs : List β} (hf : IsFrame d f) (hread : read f = some b)
      (h : Reads d read xs bs rest) : Reads d read (f ++ xs) (b :: bs) rest

/-- The frames of a stream, and what follows the last of them, are the stream. -/
theorem flatten_frames (xs : List α) : (frames d xs).1.flatten ++ (frames d xs).2 = xs := by
  induction xs with
  | nil => rfl
  | cons b bs ih =>
    have hcons : ∀ p : List (List α) × List α,
        (cons d b p).1.flatten ++ (cons d b p).2 = b :: (p.1.flatten ++ p.2) := by
      rintro ⟨fs, rest⟩
      simp only [cons]
      by_cases hb : b = d
      · rw [if_pos hb]
        rfl
      · rw [if_neg hb]
        cases fs <;> rfl
    unfold frames
    rw [hcons, ih]

theorem accepted_of_not_mem {xs : List α} (h : d ∉ xs) : accepted d read xs = ([], xs) := by
  unfold accepted
  rw [frames_of_not_mem h]
  rfl

/-- A stream that starts with a frame that is rejected. -/
theorem accepted_reject {f : List α} (hf : IsFrame d f) (hread : read f = none) (xs : List α) :
    accepted d read (f ++ xs) = ([], f ++ xs) := by
  unfold accepted
  rw [frames_append hf]
  simp only [acceptedOf, hread]
  rw [flatten_frames]

namespace Reads

variable {xs rest f : List α} {bs : List β} {b : β}

omit [DecidableEq α] in
/-- One more frame is read. -/
theorem snoc (h : Reads d read xs bs (f ++ rest)) (hf : IsFrame d f) (hread : read f = some b) :
    Reads d read xs (bs ++ [b]) rest := by
  generalize htail : f ++ rest = tail at h
  induction h with
  | nil => exact htail ▸ .cons hf hread .nil
  | cons hf' hread' _ ih => exact .cons hf' hread' (ih htail)

omit [DecidableEq α] in
/-- The stream goes on. -/
theorem more (h : Reads d read xs bs rest) (ys : List α) :
    Reads d read (xs ++ ys) bs (rest ++ ys) := by
  induction h with
  | nil => exact .nil
  | cons hf hread _ ih => exact List.append_assoc .. ▸ .cons hf hread ih

/-- What has been read are the first of the accepted frames. -/
theorem accepted_eq (h : Reads d read xs bs rest) :
    accepted d read xs = (bs ++ (accepted d read rest).1, (accepted d read rest).2) := by
  induction h with
  | nil => rfl
  | @cons f xs rest b bs hf hread _ ih =>
    have hcons : accepted d read (f ++ xs) =
        (b :: (accepted d read xs).1, (accepted d read xs).2) := by
      unfold accepted
      rw [frames_append hf]
      simp only [acceptedOf, hread]
    rw [hcons, ih]
    rfl

end Reads

end

/-! ## Readers -/

/-- A reader in the middle of a stream. -/
structure Reader (α : Type*) where
  /-- The part of a frame it has taken so far. -/
  held : List α
  /-- What it has not taken yet. -/
  rest : List α
  /-- The frames it has put out. -/
  out : List (List α)
  /-- Everything that was on the stream so far. -/
  stream : List α

/-- A reader of a stream that starts with `xs`. -/
def Reader.start (xs : List α) : Reader α := ⟨[], xs, [], xs⟩

inductive Act (α : Type*)
  | arrive (xs : List α)
  | hold
  | frame
  | cut

inductive Step (d : α) (v : Reader α) : Act α → Reader α → Prop
  | arrive {xs : List α} :
      Step d v (.arrive xs) { v with rest := v.rest ++ xs, stream := v.stream ++ xs }
  /-- A piece without a delimiter is held. -/
  | hold {x r : List α} (hrest : v.rest = x ++ r) (hx : d ∉ x) :
      Step d v .hold { v with held := v.held ++ x, rest := r }
  /-- A piece that ends a frame. -/
  | frame {x r : List α} (hrest : v.rest = x ++ r) (hx : IsFrame d x) :
      Step d v .frame { v with held := [], rest := r, out := v.out ++ [v.held ++ x] }
  /-- The reader is cut short: what it holds is lost. -/
  | cut : Step d v .cut { v with held := [] }

/-- The reader is cut short between frames only. -/
def Whole (v : Reader α) (b : Act α) : Prop := b = .cut → v.held = []

/-- The reader has put out what it has taken, frame by frame. -/
structure Faithful (d : α) (v : Reader α) : Prop where
  held : d ∉ v.held
  out : ∀ f ∈ v.out, IsFrame d f
  stream : v.stream = v.out.flatten ++ (v.held ++ v.rest)

namespace Faithful

variable {v v' : Reader α} {b : Act α}

omit [DecidableEq α] in
theorem start (xs : List α) : Faithful d (Reader.start xs) :=
  ⟨List.not_mem_nil, fun _ h => absurd h List.not_mem_nil, rfl⟩

omit [DecidableEq α] in
theorem step (hF : Faithful d v) (hw : Whole v b) (h : Step d v b v') : Faithful d v' := by
  cases h with
  | arrive =>
    refine ⟨hF.held, hF.out, ?_⟩
    show v.stream ++ _ = _
    rw [hF.stream]
    simp only [List.append_assoc]
  | hold hrest hx =>
    refine ⟨fun hd => (List.mem_append.mp hd).elim hF.held hx, hF.out, ?_⟩
    show v.stream = _
    rw [hF.stream, hrest]
    simp only [List.append_assoc]
  | frame hrest hx =>
    refine ⟨List.not_mem_nil, fun f hf => ?_, ?_⟩
    · rcases List.mem_append.mp hf with hf | hf
      · exact hF.out f hf
      · exact List.mem_singleton.mp hf ▸ hx.append hF.held
    · show v.stream = _
      rw [hF.stream, hrest]
      simp [List.append_assoc]
  | cut =>
    have hnil : v.held = [] := hw rfl
    refine ⟨List.not_mem_nil, hF.out, ?_⟩
    show v.stream = _
    rw [hF.stream, hnil]

/-- Once everything was taken, all frames have been put out. -/
theorem frames_eq (hF : Faithful d v) (hrest : v.rest = []) :
    frames d v.stream = (v.out, v.held) := by
  have hnot : d ∉ v.held ++ v.rest := by
    rw [hrest, List.append_nil]
    exact hF.held
  rw [hF.stream, frames_flatten_append hF.out, frames_of_not_mem hnot, hrest, List.append_nil,
    List.append_nil]

end Faithful

/-! ## Readers that are cut anywhere -/

omit [DecidableEq α] in
/-- What is left of a frame is a frame. -/
theorem IsFrame.of_append {p x : List α} (h : IsFrame d (p ++ x)) (hx : x ≠ []) : IsFrame d x := by
  obtain ⟨body, hbody, he⟩ := h
  obtain ⟨y, e, rfl⟩ := List.eq_nil_or_concat x |>.resolve_left hx
  rw [List.concat_eq_append, ← List.append_assoc] at he
  obtain ⟨hy, he⟩ := List.append_inj' he rfl
  cases he
  refine ⟨y, fun hd => hbody ?_, List.concat_eq_append ..⟩
  rw [← hy]
  exact List.mem_append_right _ hd

/-- A stream starts with one frame at most. -/
theorem IsFrame.append_inj {f g xs ys : List α} (hf : IsFrame d f) (hg : IsFrame d g)
    (h : f ++ xs = g ++ ys) : f = g ∧ xs = ys := by
  have hfs := frames_append hf xs
  rw [h, frames_append hg ys] at hfs
  injection hfs with hfs
  injection hfs with he
  subst he
  exact ⟨rfl, List.append_cancel_left h⟩

/-- What a reader still has to take of the frames that come, when it may have been cut
short anywhere: it is between two frames, or in the first of them, holds a part of it,
and has lost what was before that part. -/
inductive Coming (held rest : List α) : List (List α) → Prop
  | idle (hheld : held = []) (hrest : rest = []) : Coming held rest []
  | within {f : List α} {fs : List (List α)} (lost x : List α) (hf : f = lost ++ (held ++ x))
      (hx : x ≠ []) (hrest : rest = x ++ fs.flatten) : Coming held rest (f :: fs)

namespace Coming

variable {held rest : List α} {fs : List (List α)}

omit [DecidableEq α] in
/-- At the start of a frame. -/
theorem start (hfs : ∀ f ∈ fs, f ≠ []) : Coming [] fs.flatten fs := by
  cases fs with
  | nil => exact .idle rfl rfl
  | cons f fs => exact .within [] f rfl (hfs f List.mem_cons_self) rfl

omit [DecidableEq α] in
/-- One more frame. -/
theorem more (h : Coming held rest fs) {f : List α} (hf : f ≠ []) :
    Coming held (rest ++ f) (fs ++ [f]) := by
  cases h with
  | idle hheld hrest =>
    rw [hheld, hrest]
    exact .within [] f rfl hf (List.append_nil f).symm
  | @within g gs lost x hg hx hrest =>
    refine .within lost x hg hx ?_
    rw [hrest, List.append_assoc]
    simp

omit [DecidableEq α] in
/-- The reader is cut short. -/
theorem cut (h : Coming held rest fs) : Coming [] rest fs := by
  cases h with
  | idle hheld hrest => exact .idle rfl hrest
  | within lost x hf hx hrest =>
    refine .within (lost ++ held) x ?_ hx hrest
    rw [hf, List.nil_append, List.append_assoc]

omit [DecidableEq α] in
/-- The reader takes a piece that does not end the frame. -/
theorem hold (h : Coming held rest fs) (hfs : ∀ f ∈ fs, IsFrame d f) {x r : List α}
    (hrest : rest = x ++ r) (hx : d ∉ x) : Coming (held ++ x) r fs := by
  cases h with
  | idle hheld hnil =>
    rw [hnil] at hrest
    obtain ⟨rfl, rfl⟩ := List.append_eq_nil_iff.mp hrest.symm
    exact .idle (by rw [hheld, List.append_nil]) rfl
  | @within f fs lost y hf hy hy' =>
    have hframe : IsFrame d (lost ++ (held ++ y)) := hf ▸ hfs f List.mem_cons_self
    rw [← List.append_assoc] at hframe
    obtain ⟨body, -, hbody⟩ := hframe.of_append hy
    -- the piece is shorter than what is left of the frame, which has a delimiter
    rcases List.append_eq_append_iff.mp (hrest.symm.trans hy') with ⟨z, hz, hr⟩ | ⟨z, hz, -⟩
    · refine .within lost z ?_ ?_ hr
      · rw [hf, hz, List.append_assoc]
      · rintro rfl
        rw [List.append_nil] at hz
        apply hx
        rw [← hz, hbody]
        exact List.mem_append_right _ (List.mem_singleton_self d)
    · refine absurd ?_ hx
      rw [hz, hbody]
      simp

/-- The reader takes the end of the frame: it puts out the frame, or what it has not lost
of it. -/
theorem take (h : Coming held rest fs) (hfs : ∀ f ∈ fs, IsFrame d f) {l r : List α}
    (hrest : rest = l ++ r) (hl : IsFrame d l) :
    ∃ lost gs, fs = (lost ++ (held ++ l)) :: gs ∧ Coming [] r gs := by
  cases h with
  | idle hheld hnil =>
    rw [hnil] at hrest
    exact absurd (List.append_eq_nil_iff.mp hrest.symm).1 hl.ne_nil
  | @within f gs lost y hf hy hy' =>
    have hframe : IsFrame d (lost ++ (held ++ y)) := hf ▸ hfs f List.mem_cons_self
    rw [← List.append_assoc] at hframe
    obtain ⟨rfl, rfl⟩ := hl.append_inj (hframe.of_append hy) (hrest.symm.trans hy')
    exact ⟨lost, gs, by rw [hf], start fun g hg => (hfs g (List.mem_cons_of_mem _ hg)).ne_nil⟩

omit [DecidableEq α] in
/-- What the reader holds is a part of the first frame. -/
theorem held_part (h : Coming held rest fs) (hheld : held ≠ []) :
    ∃ lost x gs, fs = (lost ++ (held ++ x)) :: gs := by
  cases h with
  | idle hnil => exact absurd hnil hheld
  | within lost x hf => exact ⟨lost, x, _, by rw [hf]⟩

end Coming

end EasyTierMac.Framing
