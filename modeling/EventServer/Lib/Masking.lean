import EventServer.Lib.Runs
import Mathlib.Data.List.Basic
import Mathlib.Data.List.TakeWhile

/-! # Masking what follows a word

A pattern is a set of words and a class of characters: the run of such characters that follows a
word is to be replaced by a mark. `output` reads the text once from left to right and remembers what
it has read since the last run; it knows at every character whether it is copied, dropped or
replaced by the mark.

Reading from left to right, a text can be taken apart anywhere (`output_append`). From that follow
what a mask does to a text without runs (`output_plain`) and to a text after a word
(`output_opened`), that it can be repeated (`output_output`), and that masking for one pattern does
not bring up runs of another (`plain_output_other`). -/

namespace EventServer.Lib.Masking

variable {α : Type}

/-- The words, and the characters that are masked after one. -/
structure Pattern (α : Type) where
  Word : List α → Prop
  run : α → Bool

/-! ### Reading from left to right -/

/-- What the reader knows: the characters it has read since the last run, or that it is in one. -/
inductive State (α : Type) where
  | reading (seen : List α)
  | masking

/-- What has been read ends with a word. -/
def Pattern.Opens (p : Pattern α) (seen : List α) : Prop := ∃ x w, seen = x ++ w ∧ p.Word w

open Classical in
noncomputable def next (p : Pattern α) : State α → α → State α
  | .masking, c => if p.run c = true then .masking else .reading [c]
  | .reading seen, c => if p.run c = true ∧ p.Opens seen then .masking else .reading (seen ++ [c])

open Classical in
/-- What is written at the character `c`. -/
noncomputable def write (p : Pattern α) (mark : List α) : State α → α → List α
  | .masking, c => if p.run c = true then [] else [c]
  | .reading seen, c => if p.run c = true ∧ p.Opens seen then mark else [c]

noncomputable def output (p : Pattern α) (mark : List α) : State α → List α → List α
  | _, [] => []
  | s, c :: t => write p mark s c ++ output p mark (next p s c) t

/-- The state after a text. -/
noncomputable def after (p : Pattern α) (text : List α) : State α := run (next p) (.reading []) text

section Output

variable {p : Pattern α} {mark : List α} {s : State α} {seen t : List α} {c : α}

theorem output_cons : output p mark s (c :: t) = write p mark s c ++ output p mark (next p s c) t :=
  rfl

theorem output_append (s : State α) (a b : List α) :
    output p mark s (a ++ b) = output p mark s a ++ output p mark (run (next p) s a) b := by
  induction a generalizing s with
  | nil => rfl
  | cons c a ih =>
    rw [List.cons_append, output_cons, output_cons, ih, List.append_assoc]
    rfl

theorem next_mask (hc : p.run c = true) (ho : p.Opens seen) : next p (.reading seen) c = .masking :=
  if_pos ⟨hc, ho⟩

theorem write_mask (hc : p.run c = true)
    (ho : p.Opens seen) : write p mark (.reading seen) c = mark :=
  if_pos ⟨hc, ho⟩

theorem next_copy (h : p.run c = true → ¬ p.Opens seen) :
    next p (.reading seen) c = .reading (seen ++ [c]) := if_neg fun hc => h hc.1 hc.2

theorem write_copy (h : p.run c = true → ¬ p.Opens seen) : write p mark (.reading seen) c = [c] :=
  if_neg fun hc => h hc.1 hc.2

theorem next_drop (hc : p.run c = true) : next p .masking c = .masking := if_pos hc

theorem write_drop (hc : p.run c = true) : write p mark .masking c = [] := if_pos hc

theorem next_stop (hc : p.run c = false) : next p .masking c = .reading [c] :=
  if_neg (ne_true_of_eq_false hc)

theorem write_stop (hc : p.run c = false) : write p mark .masking c = [c] :=
  if_neg (ne_true_of_eq_false hc)

theorem write_of_not_run (s : State α) (hc : p.run c = false) : write p mark s c = [c] := by
  cases s with
  | masking => exact write_stop hc
  | reading seen => exact write_copy fun hrun => absurd hrun (ne_true_of_eq_false hc)

/-- In a run everything is dropped. -/
theorem output_masking {v : List α} (hv : ∀ c ∈ v, p.run c = true) (t : List α) :
    output p mark .masking (v ++ t) = output p mark .masking t := by
  induction v with
  | nil => rfl
  | cons c v ih =>
    have hc := hv c List.mem_cons_self
    rw [List.cons_append, output_cons, write_drop hc, next_drop hc, List.nil_append]
    exact ih fun d hd => hv d (List.mem_cons_of_mem c hd)

theorem after_masking {v : List α} (hv : ∀ c ∈ v, p.run c = true) :
    run (next p) .masking v = .masking := by
  induction v with
  | nil => rfl
  | cons c v ih =>
    rw [run_cons, next_drop (hv c List.mem_cons_self)]
    exact ih fun d hd => hv d (List.mem_cons_of_mem c hd)

theorem output_masking_of_head (h : ∀ c ∈ t.head?, p.run c = false) :
    output p mark .masking t = output p mark (.reading []) t := by
  cases t with
  | nil => rfl
  | cons c t =>
    have hc : p.run c = false := h c rfl
    have hcopy : p.run c = true → ¬ p.Opens [] := fun hrun => absurd hrun (ne_true_of_eq_false hc)
    rw [output_cons, output_cons, write_stop hc, next_stop hc, write_copy hcopy, next_copy hcopy]
    rfl

end Output

/-! ### Texts without runs -/

/-- No word is followed by a character of the class when `t` is read after `seen`. -/
def Plain (p : Pattern α) (seen t : List α) : Prop :=
  ∀ a c b, t = a ++ c :: b → p.run c = true → ¬ p.Opens (seen ++ a)

section Plain

variable {p : Pattern α} {mark : List α} {seen t : List α} {c : α}

theorem plain_nil : Plain p seen [] := by
  intro a c b h
  simp at h

theorem plain_cons : Plain p seen (c :: t) ↔
    (p.run c = true → ¬ p.Opens seen) ∧ Plain p (seen ++ [c]) t := by
  constructor
  · intro h
    refine ⟨fun hc => ?_, fun a d b ht hd => ?_⟩
    · have hnot := h [] c t rfl hc
      rwa [List.append_nil] at hnot
    · have hnot := h (c :: a) d b (by rw [ht, List.cons_append]) hd
      rwa [List.append_assoc]
  · rintro ⟨hhead, htail⟩ a d b ht hd
    cases a with
    | nil =>
      obtain ⟨rfl, -⟩ := List.cons.inj ht
      rw [List.append_nil]
      exact hhead hd
    | cons e a =>
      obtain ⟨rfl, hrest⟩ := List.cons.inj ht
      have hnot := htail a d b hrest hd
      rwa [List.append_assoc] at hnot

theorem plain_append {t' : List α} : Plain p seen (t ++ t') ↔ Plain p seen t ∧
    Plain p (seen ++ t) t' := by
  induction t generalizing seen with
  | nil =>
    rw [List.nil_append, List.append_nil]
    exact ⟨fun h => ⟨plain_nil, h⟩, fun h => h.2⟩
  | cons c t ih =>
    rw [List.cons_append, plain_cons, plain_cons, ih, and_assoc, List.append_assoc]; rfl

/-- **A text without runs is copied.** -/
theorem output_plain (h : Plain p seen t) : output p mark (.reading seen) t = t := by
  induction t generalizing seen with
  | nil => rfl
  | cons c t ih =>
    obtain ⟨hhead, htail⟩ := plain_cons.mp h
    rw [output_cons, write_copy hhead, next_copy hhead, ih htail]
    rfl

theorem after_plain (h : Plain p seen t) :
    run (next p) (.reading seen) t = .reading (seen ++ t) := by
  induction t generalizing seen with
  | nil =>
    rw [List.append_nil]
    rfl
  | cons c t ih =>
    obtain ⟨hhead, htail⟩ := plain_cons.mp h
    rw [run_cons, next_copy hhead, ih htail, List.append_assoc]
    rfl

end Plain

/-! ### What has been read before -/

section History

variable {p : Pattern α} {mark : List α} {seen seen' t : List α}

/-- No word has the character `q`. -/
def Separates (p : Pattern α) (q : α) : Prop := ∀ w, p.Word w → q ∉ w

theorem opens_append (h : p.Opens t) (seen : List α) : p.Opens (seen ++ t) := by
  obtain ⟨x, w, rfl, hw⟩ := h
  exact ⟨seen ++ x, w, (List.append_assoc _ _ _).symm, hw⟩

theorem opens_of_separates {q : α} (hq : Separates p q) (seen z : List α) :
    p.Opens (seen ++ q :: z) ↔ p.Opens z := by
  constructor
  · rintro ⟨x, w, he, hw⟩
    rcases List.append_eq_append_iff.mp he with ⟨a, -, htail⟩ | ⟨a, -, hhead⟩
    · cases a with
      | nil =>
        have hmem : q ∈ w := by
          rw [List.nil_append] at htail
          rw [← htail]
          exact List.mem_cons_self
        exact absurd hmem (hq w hw)
      | cons d a =>
        obtain ⟨-, hz⟩ := List.cons.inj htail
        exact ⟨a, w, hz, hw⟩
    · have hmem : q ∈ w := by
        rw [hhead]
        exact List.mem_append_right _ List.mem_cons_self
      exact absurd hmem (hq w hw)
  · intro h
    have hcons := opens_append h [q]
    exact opens_append hcons seen

/-- The two histories open the same words from now on. -/
def Alike (p : Pattern α) (seen seen' : List α) : Prop := ∀ z, p.Opens (seen ++ z) ↔
    p.Opens (seen' ++ z)

theorem Alike.append (h : Alike p seen seen') (t : List α) : Alike p (seen ++ t) (seen' ++ t) := by
  intro z
  rw [List.append_assoc, List.append_assoc]
  exact h (t ++ z)

theorem alike_of_separates {q : α} (hq : Separates p q)
    (seen z : List α) : Alike p (seen ++ q :: z) z := by
  intro y
  rw [List.append_assoc, List.cons_append]
  exact opens_of_separates hq seen (z ++ y)

theorem output_alike (h : Alike p seen seen') (t : List α) :
    output p mark (.reading seen) t = output p mark (.reading seen') t := by
  induction t generalizing seen seen' with
  | nil => rfl
  | cons c t ih =>
    have hopens : p.Opens seen ↔ p.Opens seen' := by
      have hnil := h []
      rwa [List.append_nil, List.append_nil] at hnil
    rw [output_cons, output_cons]
    by_cases hmask : p.run c = true ∧ p.Opens seen
    · rw [write_mask hmask.1 hmask.2, next_mask hmask.1 hmask.2,
        write_mask hmask.1 (hopens.mp hmask.2), next_mask hmask.1 (hopens.mp hmask.2)]
    · have hcopy : p.run c = true → ¬ p.Opens seen := fun hc ho => hmask ⟨hc, ho⟩
      have hcopy' : p.run c = true → ¬ p.Opens seen' := fun hc ho => hcopy hc (hopens.mpr ho)
      rw [write_copy hcopy, next_copy hcopy, write_copy hcopy', next_copy hcopy', ih (h.append [c])]

end History

/-! ### Masking again -/

section Again

variable {p : Pattern α} {mark : List α}

theorem output_output (hmark : ∀ c ∈ mark, p.run c = true) (hne : mark ≠ [])
    (s : State α) (t : List α) :
    output p mark s (output p mark s t) = output p mark s t := by
  induction t generalizing s with
  | nil => rfl
  | cons c t ih =>
    rw [output_cons]
    cases s with
    | masking =>
      by_cases hc : p.run c = true
      · rw [write_drop hc, next_drop hc, List.nil_append]
        exact ih .masking
      · have hc' : p.run c = false := by simpa using hc
        rw [write_stop hc', next_stop hc', List.singleton_append, output_cons, write_stop hc',
          next_stop hc', ih]
        rfl
    | reading seen =>
      by_cases hmask : p.run c = true ∧ p.Opens seen
      · obtain ⟨hc, ho⟩ := hmask
        rw [write_mask hc ho, next_mask hc ho]
        obtain ⟨d, m, rfl⟩ := List.exists_cons_of_ne_nil hne
        have hd := hmark d List.mem_cons_self
        have hm : ∀ c ∈ m, p.run c = true := fun e he => hmark e (List.mem_cons_of_mem d he)
        rw [List.cons_append, output_cons, write_mask hd ho, next_mask hd ho, output_masking hm, ih]
        rfl
      · have hcopy : p.run c = true → ¬ p.Opens seen := fun hc ho => hmask ⟨hc, ho⟩
        rw [write_copy hcopy, next_copy hcopy, List.singleton_append, output_cons, write_copy hcopy,
          next_copy hcopy, ih]
        rfl

/-- Nothing is masked in the mark, and what has been read before it does not matter after it. -/
structure Inert (p : Pattern α) (mark : List α) : Prop where
  plain : ∀ seen, Plain p seen mark
  forgets : ∀ seen z, p.Opens (seen ++ mark ++ z) → p.Opens z

/-- The reader of the masked text opens no more than the one that masks. -/
def Follows (p : Pattern α) (seen' : List α) : State α → Prop
  | .reading seen => ∀ z, p.Opens (seen' ++ z) → p.Opens (seen ++ z)
  | .masking => ∀ z, p.Opens (seen' ++ z) → p.Opens z

theorem Follows.copy {seen' seen : List α} (h : Follows p seen' (.reading seen)) (c : α) :
    Follows p (seen' ++ [c]) (.reading (seen ++ [c])) := by
  intro z hz
  rw [List.append_assoc] at hz ⊢
  exact h _ hz

/-- **A mask leaves no runs of its own.** -/
theorem plain_output (hmark : Inert p mark) {s : State α} {seen' : List α} (hs : Follows p seen' s)
    (t : List α) : Plain p seen' (output p mark s t) := by
  induction t generalizing s seen' with
  | nil => exact plain_nil
  | cons c t ih =>
    rw [output_cons]
    cases s with
    | masking =>
      by_cases hc : p.run c = true
      · rw [write_drop hc, next_drop hc, List.nil_append]
        exact ih hs
      · have hc' : p.run c = false := by simpa using hc
        rw [write_stop hc', next_stop hc', List.singleton_append, plain_cons]
        refine ⟨fun hrun => absurd hrun hc, ih fun z hz => ?_⟩
        rw [List.append_assoc] at hz
        exact hs _ hz
    | reading seen =>
      by_cases hmask : p.run c = true ∧ p.Opens seen
      · rw [write_mask hmask.1 hmask.2, next_mask hmask.1 hmask.2, plain_append]
        exact ⟨hmark.plain seen', ih (hmark.forgets seen')⟩
      · have hcopy : p.run c = true → ¬ p.Opens seen := fun hc ho => hmask ⟨hc, ho⟩
        rw [write_copy hcopy, next_copy hcopy, List.singleton_append, plain_cons]
        refine ⟨fun hc ho => hcopy hc ?_, ih (hs.copy c)⟩
        have hopens := hs []
        rw [List.append_nil, List.append_nil] at hopens
        exact hopens ho

/-- The same of the reader for another pattern, while the one of `p'` masks. -/
def Trails (p : Pattern α) (seen' seen : List α) : State α → Prop
  | .reading _ => ∀ z, p.Opens (seen' ++ z) → p.Opens (seen ++ z)
  | .masking => ∀ z, p.Opens (seen' ++ z) → p.Opens z

theorem Trails.weaken {s : State α} {seen' seen : List α} (h : Trails p seen' seen s) (z : List α)
    (hz : p.Opens (seen' ++ z)) : p.Opens (seen ++ z) := by
  cases s with
  | reading _ => exact h z hz
  | masking => exact opens_append (h z hz) seen

/-- **Masking for one pattern does not bring up runs of another.** -/
theorem plain_output_other (p' : Pattern α) (hmark : Inert p mark) {s : State α}
    {seen' seen t : List α} (hs : Trails p seen' seen s)
    (h : Plain p seen t) : Plain p seen' (output p' mark s t) := by
  induction t generalizing s seen' seen with
  | nil => exact plain_nil
  | cons c t ih =>
    obtain ⟨hhead, htail⟩ := plain_cons.mp h
    have hcopied : p.run c = true → ¬ p.Opens seen' := by
      intro hc ho
      have hweak := hs.weaken []
      rw [List.append_nil, List.append_nil] at hweak
      exact hhead hc (hweak ho)
    have hstep : ∀ z, p.Opens (seen' ++ [c] ++ z) → p.Opens (seen ++ [c] ++ z) := by
      intro z hz
      rw [List.append_assoc] at hz ⊢
      exact hs.weaken _ hz
    rw [output_cons]
    cases s with
    | masking =>
      by_cases hc : p'.run c = true
      · have hmasking : Trails p seen' (seen ++ [c]) .masking := hs
        rw [write_drop hc, next_drop hc, List.nil_append]
        exact ih hmasking htail
      · have hc' : p'.run c = false := by simpa using hc
        have hreading : Trails p (seen' ++ [c]) (seen ++ [c]) (.reading [c]) := hstep
        rw [write_stop hc', next_stop hc', List.singleton_append, plain_cons]
        exact ⟨hcopied, ih hreading htail⟩
    | reading other =>
      by_cases hmask : p'.run c = true ∧ p'.Opens other
      · have hmasking : Trails p (seen' ++ mark) (seen ++ [c]) .masking := hmark.forgets seen'
        rw [write_mask hmask.1 hmask.2, next_mask hmask.1 hmask.2, plain_append]
        exact ⟨hmark.plain seen', ih hmasking htail⟩
      · have hcopy : p'.run c = true → ¬ p'.Opens other := fun hc ho => hmask ⟨hc, ho⟩
        have hreading : Trails p (seen' ++ [c]) (seen ++ [c]) (.reading (other ++ [c])) := hstep
        rw [write_copy hcopy, next_copy hcopy, List.singleton_append, plain_cons]
        exact ⟨hcopied, ih hreading htail⟩

end Again

/-! ### What follows a word -/

section Opened

variable {p : Pattern α} {mark : List α} {s : State α} {seen t : List α} {c q : α} {e : α → Bool}

/-- Every word ends with a character of the class. -/
def EndsIn (p : Pattern α) (e : α → Bool) : Prop := ∀ w, p.Word w → ∃ x c, w = x ++ [c] ∧ e c = true

theorem not_opens_nil (h : EndsIn p e) : ¬ p.Opens [] := by
  rintro ⟨x, w, he, hw⟩
  obtain ⟨y, c, rfl, -⟩ := h w hw
  simp at he

theorem not_opens_concat (h : EndsIn p e) (hc : e c = false)
    (seen : List α) : ¬ p.Opens (seen ++ [c]) := by
  rintro ⟨x, w, he, hw⟩
  obtain ⟨y, d, rfl, hd⟩ := h w hw
  rw [← List.append_assoc] at he
  obtain ⟨-, hlast⟩ := List.append_inj' he rfl
  obtain rfl := (List.cons.inj hlast).1
  rw [hc] at hd
  cases hd

theorem plain_of_ends (h : EndsIn p e) (hseen : ¬ p.Opens seen) (ht : ∀ c ∈ t, e c = false) :
    Plain p seen t := by
  induction t generalizing seen with
  | nil => exact plain_nil
  | cons c t ih =>
    have hc := ht c List.mem_cons_self
    exact plain_cons.mpr ⟨fun _ => hseen,
      ih (not_opens_concat h hc seen) fun d hd => ht d (List.mem_cons_of_mem c hd)⟩

theorem plain_of_not_run (ht : ∀ c ∈ t, p.run c = false) : Plain p seen t := by
  rintro a c b rfl hc
  have hfalse := ht c (List.mem_append_right a List.mem_cons_self)
  rw [hc] at hfalse
  cases hfalse

theorem output_run {v : List α} (ho : p.Opens seen) (hne : v ≠ []) (hv : ∀ c ∈ v, p.run c = true)
    (t : List α) : output p mark (.reading seen) (v ++ t) = mark ++ output p mark .masking t := by
  obtain ⟨c, v, rfl⟩ := List.exists_cons_of_ne_nil hne
  have hc := hv c List.mem_cons_self
  rw [List.cons_append, output_cons, write_mask hc ho, next_mask hc ho,
    output_masking fun d hd => hv d (List.mem_cons_of_mem c hd)]

theorem run_run {v : List α} (ho : p.Opens seen) (hne : v ≠ []) (hv : ∀ c ∈ v, p.run c = true) :
    run (next p) (.reading seen) v = .masking := by
  obtain ⟨c, v, rfl⟩ := List.exists_cons_of_ne_nil hne
  have hc := hv c List.mem_cons_self
  rw [run_cons, next_mask hc ho]
  exact after_masking fun d hd => hv d (List.mem_cons_of_mem c hd)

/-- The text with the mark in the place of the run it begins with, if there is one. -/
def maskRun (cls : α → Bool) (mark v : List α) : List α :=
  if v.takeWhile cls = [] then v else mark ++ v.dropWhile cls

theorem head?_dropWhile (cls : α → Bool)
    (v : List α) : ∀ c ∈ (v.dropWhile cls).head?, cls c = false := by
  intro c hc
  have hnot := List.head?_dropWhile_not cls v
  rw [Option.mem_def.mp hc] at hnot
  exact hnot

theorem takeWhile_run {cls : α → Bool} {v rest : List α} (hv : ∀ c ∈ v, cls c = true)
    (hstop : ∀ c ∈ rest.head?, cls c = false) :
    (v ++ rest).takeWhile cls = v ∧ (v ++ rest).dropWhile cls = rest := by
  rw [List.takeWhile_append_of_pos hv, List.dropWhile_append_of_pos hv]
  cases rest with
  | nil => exact ⟨List.append_nil v, rfl⟩
  | cons c rest =>
    have hc : ¬ cls c = true := ne_true_of_eq_false (hstop c rfl)
    rw [List.takeWhile_cons_of_neg hc, List.dropWhile_cons_of_neg hc]
    exact ⟨List.append_nil v, rfl⟩

/-- The run at the start of a text is determined by it. -/
theorem run_inj {cls : α → Bool} {v v' r r' : List α} (hv : ∀ c ∈ v, cls c = true)
    (hv' : ∀ c ∈ v', cls c = true) (hr : ∀ c ∈ r.head?, cls c = false)
    (hr' : ∀ c ∈ r'.head?, cls c = false) (h : v ++ r = v' ++ r') : v = v' := by
  rw [← (takeWhile_run hv hr).1, h, (takeWhile_run hv' hr').1]

theorem output_take (ho : p.Opens seen) {v : List α} (hv : v.takeWhile p.run ≠ [])
    (mark t : List α) :
    output p mark (.reading seen) (v ++ t) = mark ++
      output p mark .masking (v.dropWhile p.run ++ t) := by
  have hrun : ∀ c ∈ v.takeWhile p.run, p.run c = true := fun c hc => List.mem_takeWhile_imp hc
  have hsplit : v ++ t = v.takeWhile p.run ++ (v.dropWhile p.run ++ t) := by
    rw [← List.append_assoc, List.takeWhile_append_dropWhile]
  rw [hsplit, output_run ho hv hrun]

/-- **After a word** a text in which no word ends is masked up to the end of its first run. -/
theorem output_opened (h : EndsIn p e) (ho : p.Opens seen) {v : List α}
    (hv : ∀ c ∈ v, e c = false) :
    output p mark (.reading seen) v = maskRun p.run mark v := by
  unfold maskRun
  split_ifs with htake
  · refine output_plain ?_
    cases v with
    | nil => exact plain_nil
    | cons c v =>
      have hc : p.run c = false := by
        by_contra hc
        rw [List.takeWhile_cons_of_pos (by simpa using hc)] at htake
        cases htake
      refine plain_cons.mpr ⟨fun hrun => absurd hrun (ne_true_of_eq_false hc), ?_⟩
      exact plain_of_ends h (not_opens_concat h (hv c List.mem_cons_self) seen)
        fun d hd => hv d (List.mem_cons_of_mem c hd)
  · have hrest : ∀ c ∈ v.dropWhile p.run, e c = false :=
      fun c hc => hv c (List.dropWhile_subset _ hc)
    have htail := output_take ho htake mark []
    rw [List.append_nil, List.append_nil, output_masking_of_head (head?_dropWhile p.run v),
      output_plain (plain_of_ends h (not_opens_nil h) hrest)] at htail
    exact htail

/-- Both texts begin with a run, and they are the same after it. -/
def SameRest (cls : α → Bool) (v v' : List α) : Prop :=
  v.takeWhile cls ≠ [] ∧ v'.takeWhile cls ≠ [] ∧ v.dropWhile cls = v'.dropWhile cls

/-- `v` has the mark itself where `v'` has a run. -/
def Marked (cls : α → Bool) (mark v v' : List α) : Prop :=
  v'.takeWhile cls ≠ [] ∧ v = mark ++ v'.dropWhile cls

theorem maskRun_of_sameRest {cls : α → Bool} {v v' : List α} (h : SameRest cls v v')
    (mark : List α) :
    maskRun cls mark v = maskRun cls mark v' := by
  obtain ⟨hv, hv', hrest⟩ := h
  unfold maskRun
  rw [if_neg hv, if_neg hv', hrest]

theorem cases_of_maskRun {cls : α → Bool} {v v' : List α}
    (h : maskRun cls mark v = maskRun cls mark v') :
    v = v' ∨ SameRest cls v v' ∨ Marked cls mark v v' ∨ Marked cls mark v' v := by
  unfold maskRun at h
  split_ifs at h with hv hv' hv'
  · exact Or.inl h
  · exact Or.inr (Or.inr (Or.inl ⟨hv', h⟩))
  · exact Or.inr (Or.inr (Or.inr ⟨hv, h.symm⟩))
  · exact Or.inr (Or.inl ⟨hv, hv', List.append_cancel_left h⟩)

theorem takeWhile_append_of_head {cls : α → Bool} {d : α} {m : List α}
    (hd : cls d = false) (v : List α) :
    (d :: m ++ v).takeWhile cls = [] :=
  List.takeWhile_cons_of_neg (ne_true_of_eq_false hd)

theorem maskRun_of_marked {cls : α → Bool} {d : α} {m v v' : List α} (hd : cls d = false)
    (h : Marked cls (d :: m) v v') : maskRun cls (d :: m) v = maskRun cls (d :: m) v' := by
  obtain ⟨hv', rfl⟩ := h
  unfold maskRun
  rw [if_neg hv', if_pos (takeWhile_append_of_head hd _)]

theorem sameRest_of_marked {cls : α → Bool} {v v' : List α} (hne : mark ≠ [])
    (hmark : ∀ c ∈ mark, cls c = true) (h : Marked cls mark v v') : SameRest cls v v' := by
  obtain ⟨hv', rfl⟩ := h
  obtain ⟨htake, hdrop⟩ := takeWhile_run hmark (head?_dropWhile cls v')
  exact ⟨by rwa [htake], hv', hdrop⟩

theorem output_literal (hmark : Inert p mark) (seen t : List α) :
    output p mark (.reading seen) (mark ++ t) = mark ++ output p mark (.reading []) t := by
  have hforget : Alike p (seen ++ mark) [] := fun z =>
    ⟨hmark.forgets seen z, fun hz => opens_append hz (seen ++ mark)⟩
  rw [output_append, output_plain (hmark.plain seen), after_plain (hmark.plain seen),
    output_alike hforget]

/-- After a word the masked form of a text is masked as the text is. -/
theorem output_maskRun (hmark : Inert p mark) (ho : p.Opens seen) (v : List α)
    (ht : ∀ c ∈ t.head?, p.run c = false) :
    output p mark (.reading seen) (maskRun p.run mark v ++ t) = output p mark (.reading seen)
      (v ++ t) := by
  unfold maskRun
  split_ifs with htake
  · rfl
  · have hhead : ∀ c ∈ (v.dropWhile p.run ++ t).head?, p.run c = false := by
      have hdrop := head?_dropWhile p.run v
      cases hrest : v.dropWhile p.run with
      | nil => exact ht
      | cons d r =>
        rw [hrest] at hdrop
        exact hdrop
    rw [List.append_assoc, output_literal hmark, output_take ho htake mark,
      output_masking_of_head hhead]

/-! ### Characters -/

theorem next_of_not_run (s : State α)
    (hc : p.run c = false) : ∃ z, next p s c = .reading (z ++ [c]) := by
  cases s with
  | masking => exact ⟨[], next_stop hc⟩
  | reading seen =>
    exact ⟨seen, next_copy fun hrun => absurd hrun (ne_true_of_eq_false hc)⟩

theorem output_separator (hq : Separates p q) (hrun : p.run q = false) (s : State α) (t : List α) :
    output p mark s (q :: t) = q :: output p mark (.reading []) t := by
  obtain ⟨z, hz⟩ := next_of_not_run s hrun
  have hforget : Alike p (z ++ [q]) [] := alike_of_separates hq z []
  rw [output_cons, write_of_not_run s hrun, hz, output_alike hforget]
  rfl

theorem mem_output (hc : c ∈ output p mark s t) : c ∈ mark ∨ c ∈ t := by
  induction t generalizing s with
  | nil => cases hc
  | cons d t ih =>
    rw [output_cons] at hc
    rcases List.mem_append.mp hc with hc | hc
    · cases s with
      | masking =>
        by_cases hd : p.run d = true
        · rw [write_drop hd] at hc
          cases hc
        · rw [write_stop (by simpa using hd), List.mem_singleton] at hc
          exact Or.inr (hc ▸ List.mem_cons_self)
      | reading seen =>
        by_cases hmask : p.run d = true ∧ p.Opens seen
        · rw [write_mask hmask.1 hmask.2] at hc
          exact Or.inl hc
        · rw [write_copy fun hd ho => hmask ⟨hd, ho⟩, List.mem_singleton] at hc
          exact Or.inr (hc ▸ List.mem_cons_self)
    · exact (ih hc).imp_right (List.mem_cons_of_mem d)

theorem head?_output (s : State α) (h : ∀ c ∈ t.head?, p.run c = false) :
    (output p mark s t).head? = t.head? := by
  cases t with
  | nil => rfl
  | cons c t =>
    rw [output_cons, write_of_not_run s (h c rfl)]
    rfl

/-! ### Before a word -/

/-- No run goes on, and none may begin. -/
def State.AtRest (p : Pattern α) : State α → Prop
  | .reading seen => ¬ p.Opens seen
  | .masking => False

theorem run_of_not_atRest {v : List α} (hs : ¬ s.AtRest p) (hne : v ≠ [])
    (hv : ∀ c ∈ v, p.run c = true) :
    run (next p) s v = .masking := by
  cases s with
  | masking => exact after_masking hv
  | reading seen => exact run_run (not_not.mp hs) hne hv

/-- What is written up to a place inside a run ends with the mark. -/
theorem output_of_masking (mark : List α) (h : after p t = .masking) :
    ∃ z, output p mark (.reading []) t = z ++ mark := by
  induction t using List.reverseRecOn with
  | nil => cases h
  | append_singleton t c ih =>
    unfold after at h ih
    rw [run_append] at h
    rw [output_append]
    cases hs : run (next p) (.reading []) t with
    | masking =>
      obtain ⟨z, hz⟩ := ih hs
      rw [hs] at h
      have hc : p.run c = true := by
        by_contra hc
        rw [run_cons, next_stop (by simpa using hc)] at h
        cases h
      exact ⟨z, by rw [hz, output_cons, write_drop hc, next_drop hc]; simp [output]⟩
    | reading seen =>
      rw [hs] at h
      by_cases hmask : p.run c = true ∧ p.Opens seen
      · refine ⟨output p mark (.reading []) t, ?_⟩
        rw [output_cons, write_mask hmask.1 hmask.2]
        simp [output]
      · rw [run_cons, next_copy fun hc ho => hmask ⟨hc, ho⟩] at h
        cases h

theorem run_stop {b : List α} (hb : b ≠ []) (hstop : ∀ c ∈ b, p.run c = false) :
    run (next p) .masking b = .reading b := by
  obtain ⟨c, b, rfl⟩ := List.exists_cons_of_ne_nil hb
  have htail : ∀ d ∈ b, p.run d = false := fun d hd => hstop d (List.mem_cons_of_mem c hd)
  rw [run_cons, next_stop (hstop c List.mem_cons_self), after_plain (plain_of_not_run htail)]
  rfl

/-- `a`, in which no word ends, and `b`, which has no run, are read at a place that is at rest. -/
theorem run_atRest {a b : List α} (h : EndsIn p e) (ha : ∀ c ∈ a, e c = false)
    (hb : ∀ c ∈ b, p.run c = false) (hs : s.AtRest p) :
    ∃ seen, run (next p) s (a ++ b) = .reading (seen ++ (a ++ b)) := by
  cases s with
  | masking => exact absurd hs id
  | reading seen =>
    exact ⟨seen, after_plain (plain_append.mpr ⟨plain_of_ends h hs ha, plain_of_not_run hb⟩)⟩

/-- At a place that is not at rest the run there goes on up to `b`. -/
theorem run_of_run {a b : List α} (ha : a ≠ []) (hrun : ∀ c ∈ a, p.run c = true) (hb : b ≠ [])
    (hstop : ∀ c ∈ b, p.run c = false)
    (hs : ¬ s.AtRest p) : run (next p) s (a ++ b) = .reading b := by
  rw [run_append, run_of_not_atRest hs ha hrun, run_stop hb hstop]

/-- **A word opens** exactly at a place that is at rest, if it is a run up to its last characters
`b`: at any other place it belongs to the run there. -/
theorem run_word {a b : List α} (h : EndsIn p e) (hends : ∀ c, p.run c = true → e c = false)
    (hword : p.Word (a ++ b)) (ha : a ≠ []) (hrun : ∀ c ∈ a, p.run c = true) (hb : b ≠ [])
    (hstop : ∀ c ∈ b, p.run c = false) (hnot : ¬ p.Opens b) (s : State α) :
    ∃ seen, run (next p) s (a ++ b) = .reading seen ∧ (p.Opens seen ↔ s.AtRest p) := by
  by_cases hs : s.AtRest p
  · obtain ⟨seen, hseen⟩ := run_atRest h (fun c hc => hends c (hrun c hc)) hstop hs
    exact ⟨seen ++ (a ++ b), hseen, iff_of_true ⟨seen, a ++ b, rfl, hword⟩ hs⟩
  · exact ⟨b, run_of_run ha hrun hb hstop hs, iff_of_false hnot hs⟩

/-- At a place that is at rest a text is copied up to where a word can end, and on as long as there
is no run. -/
theorem output_atRest {a b : List α} (h : EndsIn p e) (ha : ∀ c ∈ a, e c = false)
    (hb : ∀ c ∈ b, p.run c = false) (hs : s.AtRest p) : output p mark s (a ++ b) = a ++ b := by
  cases s with
  | masking => exact absurd hs id
  | reading seen =>
    exact output_plain (plain_append.mpr ⟨plain_of_ends h hs ha, plain_of_not_run hb⟩)

end Opened

end EventServer.Lib.Masking
