import EventServer.Lib.Masking
import Mathlib.Computability.Language

/-! # Substitution with regular expressions

A matcher reads the start of a text: what it matches, and the rest. The matchers here read as much
as they can and never go back; such a matcher reads the words of a language (`Reads`) if what comes
after a word cannot belong to it. `findRun` is an expression with a group, which is kept, and a
class of characters whose run is to be replaced, and `sub` replaces it at the leftmost match, and
goes on after it.

`sub_eq_output` says that this is the mask for the words of the group, if no word has another one
inside that is followed by a character of the class. -/

namespace EventServer.Lib.Masking

variable {α β : Type}

/-! ### Matchers -/

abbrev Matcher (α : Type) := List α → Option (List α × List α)

/-- `[cls]` -/
def one (cls : α → Bool) : Matcher α
  | [] => none
  | c :: t => if cls c then some ([c], t) else none

/-- `[cls]?` -/
def optional (cls : α → Bool) : Matcher α
  | [] => some ([], [])
  | c :: t => if cls c then some ([c], t) else some ([], c :: t)

/-- `[cls]*` -/
def star (cls : α → Bool) : Matcher α := fun t => some (t.takeWhile cls, t.dropWhile cls)

/-- `[cls]+` -/
def plus (cls : α → Bool) : Matcher α := fun t =>
  if t.takeWhile cls = [] then none else some (t.takeWhile cls, t.dropWhile cls)

/-- The letters `ps` one after the other, where `same` says which characters a letter stands for. -/
def letters (same : β → α → Bool) : List β → Matcher α
  | [], t => some ([], t)
  | _ :: _, [] => none
  | p :: ps, c :: t => if same p c then (letters same ps t).map fun m => (c :: m.1, m.2) else none

/-- The first of the words that is there. -/
def anyOf (same : β → α → Bool) (words : List (List β)) : Matcher α := fun t =>
  words.findSome? fun ps => letters same ps t

def Matcher.seq (m m' : Matcher α) : Matcher α := fun t =>
  (m t).bind fun a => (m' a.2).map fun b => (a.1 ++ b.1, b.2)

/-! ### What they read -/

/-- The matcher reads the words of `l`, unless a character of `stop` comes after them. -/
structure Reads (m : Matcher α) (l : Language α) (stop : α → Bool) : Prop where
  sound : ∀ {t w rest}, m t = some (w, rest) → t = w ++ rest ∧ w ∈ l
  complete : ∀ {w rest}, w ∈ l → (∀ c ∈ rest.head?, stop c = false) → m (w ++ rest) = some (w, rest)

def oneOf (cls : α → Bool) : Language α := {w | ∃ c, cls c = true ∧ w = [c]}

def starOf (cls : α → Bool) : Language α := {w | ∀ c ∈ w, cls c = true}

def plusOf (cls : α → Bool) : Language α := {w | w ≠ [] ∧ ∀ c ∈ w, cls c = true}

/-- The texts a word stands for. -/
def spellings (same : β → α → Bool) (ps : List β) : Language α :=
  {w | List.Forall₂ (fun p c => same p c = true) ps w}

/-- No character stands for the letters of both words at the same place. -/
def Apart (same : β → α → Bool) (ps ps' : List β) : Prop :=
  ∃ a ∈ ps.zip ps', ∀ c, same a.1 c = true → same a.2 c = false

/-- Every word begins with a character of the class. -/
def Begins (l : Language α) (cls : α → Bool) : Prop := ∀ w ∈ l, ∃ c v, w = c :: v ∧ cls c = true

section Begins

variable {l l' : Language α} {cls cls' : α → Bool}

theorem begins_oneOf (cls : α → Bool) : Begins (oneOf cls) cls := by
  rintro w ⟨c, hc, rfl⟩
  exact ⟨c, [], rfl, hc⟩

theorem begins_plusOf (cls : α → Bool) : Begins (plusOf cls) cls := by
  rintro w ⟨hne, hw⟩
  obtain ⟨c, v, rfl⟩ := List.exists_cons_of_ne_nil hne
  exact ⟨c, v, rfl, hw c List.mem_cons_self⟩

theorem Begins.mul (h : Begins l cls) : Begins (l * l') cls := by
  intro w hw
  obtain ⟨a, ha, b, -, rfl⟩ := Language.mem_mul.mp hw
  obtain ⟨c, v, rfl, hc⟩ := h a ha
  exact ⟨c, v ++ b, rfl, hc⟩

theorem Begins.star_mul (h : Begins l cls) : Begins (starOf cls' * l) fun c => cls' c || cls c := by
  intro w hw
  obtain ⟨a, ha, b, hb, rfl⟩ := Language.mem_mul.mp hw
  cases a with
  | nil =>
    obtain ⟨c, v, rfl, hc⟩ := h b hb
    exact ⟨c, v, rfl, (Bool.or_eq_true _ _).mpr (Or.inr hc)⟩
  | cons c a => exact ⟨c, a ++ b, rfl, (Bool.or_eq_true _ _).mpr (Or.inl (ha c List.mem_cons_self))⟩

theorem Begins.optional_mul (h : Begins l cls) :
    Begins ((1 + oneOf cls') * l) fun c => cls' c || cls c := by
  intro w hw
  obtain ⟨a, ha, b, hb, rfl⟩ := Language.mem_mul.mp hw
  rcases ha with ha | ⟨c, hc, rfl⟩
  · obtain rfl : a = [] := ha
    obtain ⟨c, v, rfl, hc⟩ := h b hb
    exact ⟨c, v, rfl, (Bool.or_eq_true _ _).mpr (Or.inr hc)⟩
  · exact ⟨c, b, rfl, (Bool.or_eq_true _ _).mpr (Or.inl hc)⟩

end Begins

section Reads

variable {m m' : Matcher α} {l l' : Language α} {stop stop' cls : α → Bool} {same : β → α → Bool}

theorem reads_one (cls : α → Bool) : Reads (one cls) (oneOf cls) fun _ => false := by
  constructor
  · intro t w rest h
    cases t with
    | nil => cases h
    | cons c t =>
      rw [one] at h
      split_ifs at h with hc
      cases h
      exact ⟨rfl, c, hc, rfl⟩
  · rintro w rest ⟨c, hc, rfl⟩ -
    show (if cls c = true then some ([c], rest) else none) = _
    rw [if_pos hc]

theorem reads_optional (cls : α → Bool) : Reads (optional cls) (1 + oneOf cls) cls := by
  constructor
  · intro t w rest h
    cases t with
    | nil =>
      cases h
      exact ⟨rfl, Or.inl rfl⟩
    | cons c t =>
      rw [optional] at h
      split_ifs at h with hc
      · cases h
        exact ⟨rfl, Or.inr ⟨c, hc, rfl⟩⟩
      · cases h
        exact ⟨rfl, Or.inl rfl⟩
  · rintro w rest (hw | ⟨c, hc, rfl⟩) hstop
    · obtain rfl : w = [] := hw
      cases rest with
      | nil => rfl
      | cons c rest =>
        show (if cls c = true then some ([c], rest) else some ([], c :: rest)) = _
        rw [if_neg (ne_true_of_eq_false (hstop c rfl))]
    · show (if cls c = true then some ([c], rest) else some ([], c :: rest)) = _
      rw [if_pos hc]

theorem reads_star (cls : α → Bool) : Reads (star cls) (starOf cls) cls := by
  constructor
  · intro t w rest h
    cases h
    exact ⟨List.takeWhile_append_dropWhile.symm, fun c hc => List.mem_takeWhile_imp hc⟩
  · intro w rest hw hstop
    obtain ⟨htake, hdrop⟩ := takeWhile_run hw hstop
    unfold star
    rw [htake, hdrop]

theorem reads_plus (cls : α → Bool) : Reads (plus cls) (plusOf cls) cls := by
  constructor
  · intro t w rest h
    unfold plus at h
    split_ifs at h with htake
    cases h
    exact ⟨List.takeWhile_append_dropWhile.symm, htake, fun c hc => List.mem_takeWhile_imp hc⟩
  · rintro w rest ⟨hne, hw⟩ hstop
    obtain ⟨htake, hdrop⟩ := takeWhile_run hw hstop
    unfold plus
    rw [htake, hdrop, if_neg hne]

theorem letters_sound {ps : List β} {t w rest : List α} (h : letters same ps t = some (w, rest)) :
    t = w ++ rest ∧ w ∈ spellings same ps := by
  induction ps generalizing t w with
  | nil =>
    cases h
    exact ⟨rfl, .nil⟩
  | cons p ps ih =>
    cases t with
    | nil => cases h
    | cons c t =>
      unfold letters at h
      split_ifs at h with hc
      obtain ⟨⟨w', rest'⟩, hm, heq⟩ := Option.map_eq_some_iff.mp h
      cases heq
      obtain ⟨rfl, hw⟩ := ih hm
      exact ⟨rfl, .cons hc hw⟩

theorem letters_complete {ps : List β} {w : List α} (h : w ∈ spellings same ps) (rest : List α) :
    letters same ps (w ++ rest) = some (w, rest) := by
  induction h with
  | nil => rfl
  | @cons p c ps w hc _ ih =>
    rw [List.cons_append, letters, if_pos hc, ih]
    rfl

theorem mem_spelling {ps : List β} {w : List α} (h : w ∈ spellings same ps) {c : α} (hc : c ∈ w) :
    ∃ p ∈ ps, same p c = true := by
  induction h with
  | nil => cases hc
  | @cons p d ps w hd _ ih =>
    rcases List.mem_cons.mp hc with rfl | hc
    · exact ⟨p, List.mem_cons_self, hd⟩
    · obtain ⟨p', hp', hc⟩ := ih hc
      exact ⟨p', List.mem_cons_of_mem p hp', hc⟩

theorem reads_letters (same : β → α → Bool) (ps : List β) :
    Reads (letters same ps) (spellings same ps) fun _ => false :=
  ⟨letters_sound, fun hw _ => letters_complete hw _⟩

theorem letters_eq_none {ps ps' : List β} {w : List α} (h : Apart same ps ps')
    (hw : w ∈ spellings same ps') (rest : List α) : letters same ps (w ++ rest) = none := by
  induction hw generalizing ps with
  | nil =>
    obtain ⟨a, ha, -⟩ := h
    simp at ha
  | @cons p' c ps' w hc _ ih =>
    cases ps with
    | nil =>
      obtain ⟨a, ha, -⟩ := h
      simp at ha
    | cons p ps =>
      rw [List.cons_append, letters]
      split_ifs with hp
      · obtain ⟨a, ha, hnot⟩ := h
        rw [List.zip_cons_cons, List.mem_cons] at ha
        rcases ha with rfl | ha
        · have hfalse := hnot c hp
          rw [hc] at hfalse
          cases hfalse
        · rw [ih ⟨a, ha, hnot⟩]
          rfl
      · rfl

theorem reads_anyOf {words : List (List β)} (h : words.Pairwise (Apart same)) :
    Reads (anyOf same words) {w | ∃ ps ∈ words, w ∈ spellings same ps} fun _ => false := by
  constructor
  · intro t w rest hfind
    obtain ⟨ps, hps, hmatch⟩ := List.exists_of_findSome?_eq_some hfind
    obtain ⟨ht, hw⟩ := letters_sound hmatch
    exact ⟨ht, ps, hps, hw⟩
  · rintro w rest ⟨ps, hps, hw⟩ -
    unfold anyOf
    induction h with
    | nil => cases hps
    | @cons ps' words hapart _ ih =>
      rw [List.findSome?_cons]
      rcases List.mem_cons.mp hps with rfl | hps
      · rw [letters_complete hw]
      · rw [letters_eq_none (hapart ps hps) hw]
        exact ih hps

/-- One matcher after the other, where no word of the second begins with what stops the first. -/
theorem Reads.seq (h : Reads m l stop) (h' : Reads m' l' stop') (hl : Begins l' cls)
    (hstop : ∀ c, cls c = true → stop c = false) : Reads (m.seq m') (l * l') stop' := by
  constructor
  · intro t w rest hm
    obtain ⟨⟨a, ta⟩, ha, hmap⟩ := Option.bind_eq_some_iff.mp hm
    obtain ⟨⟨b, tb⟩, hb, heq⟩ := Option.map_eq_some_iff.mp hmap
    cases heq
    obtain ⟨rfl, hal⟩ := h.sound ha
    obtain ⟨htb, hbl⟩ := h'.sound hb
    have hsplit : ta = b ++ tb := htb
    exact ⟨by rw [hsplit, List.append_assoc], Language.append_mem_mul hal hbl⟩
  · intro w rest hw hrest
    obtain ⟨a, ha, b, hb, rfl⟩ := Language.mem_mul.mp hw
    obtain ⟨c, v, rfl, hc⟩ := hl b hb
    have hfirst : m (a ++ (c :: v ++ rest)) = some (a, c :: v ++ rest) :=
      h.complete ha fun d hd => by
        rw [List.cons_append, List.head?_cons, Option.mem_some_iff] at hd
        rw [← hd]
        exact hstop c hc
    unfold Matcher.seq
    rw [List.append_assoc, hfirst, Option.bind_some, h'.complete hb hrest]
    rfl

end Reads

/-! ### Substitution -/

/-- `pattern.sub(mark, text)`, where `find` is the match at the start of a text: its group, which is
kept, and the run. The first argument counts the characters that have been consumed already. -/
def subFrom (find : List α → Option (List α × List α)) (mark : List α) : ℕ → List α → List α
  | _, [] => []
  | skip + 1, _ :: t => subFrom find mark skip t
  | 0, c :: t =>
    match find (c :: t) with
    | some (group, run) => group ++ mark ++ subFrom find mark (group.length + run.length - 1) t
    | none => c :: subFrom find mark 0 t

def sub (find : List α → Option (List α × List α)) (mark text : List α) : List α :=
  subFrom find mark 0 text

section Sub

variable {find : List α → Option (List α × List α)} {mark : List α}

theorem subFrom_eq (skip : ℕ) (t : List α) :
    subFrom find mark skip t = sub find mark (t.drop skip) := by
  induction t generalizing skip with
  | nil => cases skip <;> rfl
  | cons c t ih =>
    cases skip with
    | zero => rfl
    | succ skip => exact ih skip

theorem sub_of_none {c : α} {t : List α} (h : find (c :: t) = none) :
    sub find mark (c :: t) = c :: sub find mark t := by
  unfold sub
  rw [subFrom, h]

theorem sub_of_some {text group run rest : List α} (h : find text = some (group, run))
    (ht : text = group ++ run ++ rest) (hrun : run ≠ []) :
    sub find mark text = group ++ mark ++ sub find mark rest := by
  have hpos : 0 < run.length := List.length_pos_iff.mpr hrun
  cases text with
  | nil =>
    have hlen := congrArg List.length ht
    simp only [List.length_nil, List.length_append] at hlen
    omega
  | cons c t =>
    have hdrop : t.drop (group.length + run.length - 1) = rest := by
      have hone : (c :: t).drop (group.length + run.length) = rest := by
        rw [ht, ← List.length_append, List.drop_left]
      have hsucc : group.length + run.length = (group.length + run.length - 1) + 1 := by omega
      rw [hsucc, List.drop_succ_cons] at hone
      exact hone
    show subFrom find mark 0 (c :: t) = _
    rw [subFrom, h]
    show group ++ mark ++ subFrom find mark (group.length + run.length - 1) t = _
    rw [subFrom_eq, hdrop]

end Sub

/-! ### Substitution reads from left to right -/

section Equal

variable {p : Pattern α} {mark : List α} {find : List α → Option (List α × List α)}

/-- `find` finds the words of the pattern at the start of a text, with the whole run after each. -/
structure Finds (find : List α → Option (List α × List α)) (p : Pattern α) : Prop where
  sound : ∀ {text group run}, find text = some (group, run) → ∃ rest, text = group ++ run ++ rest ∧
    p.Word group ∧ run ≠ [] ∧ (∀ c ∈ run, p.run c = true) ∧ ∀ c ∈ rest.head?, p.run c = false
  complete : ∀ {w c}, p.Word w → p.run c = true → ∀ rest, find (w ++ c :: rest) ≠ none

/-- No word has another inside that is followed by a character of the class. -/
def Flat (p : Pattern α) : Prop :=
  ∀ x w c y, p.Word (x ++ w ++ c :: y) → p.Word w → p.run c = false

/-- No match starts in what has been read. -/
def Passed (find : List α → Option (List α × List α)) (seen t : List α) : Prop :=
  ∀ x w, seen = x ++ w → w ≠ [] → find (w ++ t) = none

theorem passed_concat {seen t : List α} {c : α} (h : Passed find seen (c :: t))
    (hc : find (c :: t) = none) : Passed find (seen ++ [c]) t := by
  intro x w he hw
  rcases List.eq_nil_or_concat w with rfl | ⟨w', d, rfl⟩
  · exact absurd rfl hw
  · rw [List.concat_eq_append, ← List.append_assoc] at he
    obtain ⟨hseen, hd⟩ := List.append_inj' he rfl
    obtain rfl := List.cons.inj hd |>.1
    rw [List.concat_eq_append, List.append_assoc, List.singleton_append]
    cases w' with
    | nil => exact hc
    | cons e w' => exact h x (e :: w') hseen (List.cons_ne_nil e w')

theorem not_opens_of_passed (hfind : Finds find p) {seen t : List α} {c : α}
    (h : Passed find seen (c :: t)) (hnone : find (c :: t) = none) (hc : p.run c = true) :
    ¬ p.Opens seen := by
  rintro ⟨x, w, he, hw⟩
  have hsome := hfind.complete hw hc t
  cases w with
  | nil => exact hsome hnone
  | cons e w => exact hsome (h x (e :: w) he (List.cons_ne_nil e w))

theorem plain_word (hfind : Finds find p) (hflat : Flat p) {seen group rest : List α}
    (hgroup : p.Word group) (h : Passed find seen (group ++ rest)) : Plain p seen group := by
  rintro a c b rfl hc ⟨x, w, he, hw⟩
  rcases List.append_eq_append_iff.mp he with ⟨y, -, ha⟩ | ⟨y, hseen, hwy⟩
  · rw [ha] at hgroup
    have hfalse := hflat y w c b hgroup hw
    rw [hc] at hfalse
    cases hfalse
  · cases y with
    | nil =>
      rw [List.nil_append] at hwy
      rw [← hwy] at hgroup
      have hfalse := hflat [] w c b hgroup hw
      rw [hc] at hfalse
      cases hfalse
    | cons e y =>
      have hnone := h x (e :: y) hseen (List.cons_ne_nil e y)
      have hsome := hfind.complete hw hc (b ++ rest)
      rw [hwy] at hsome
      have hsame : e :: y ++ (a ++ c :: b ++ rest) = e :: y ++ a ++ c :: (b ++ rest) := by simp
      rw [hsame] at hnone
      exact hsome hnone

theorem sub_eq_output_from (hfind : Finds find p) (hflat : Flat p)
    (n : ℕ) : ∀ t : List α, t.length ≤ n →
    ∀ seen, Passed find seen t → sub find mark t = output p mark (.reading seen) t := by
  induction n with
  | zero =>
    intro t hlen seen _
    have hnil : t = [] := List.eq_nil_of_length_eq_zero (Nat.le_zero.mp hlen)
    rw [hnil]
    rfl
  | succ n ih =>
    intro t hlen seen hpassed
    cases t with
    | nil => rfl
    | cons c t =>
      cases hmatch : find (c :: t) with
      | none =>
        have hcopy : p.run c = true → ¬ p.Opens seen :=
          fun hc => not_opens_of_passed hfind hpassed hmatch hc
        rw [sub_of_none hmatch, output_cons, write_copy hcopy, next_copy hcopy,
          ih t (Nat.le_of_succ_le_succ hlen) (seen ++ [c]) (passed_concat hpassed hmatch)]
        rfl
      | some r =>
        obtain ⟨group, v⟩ := r
        obtain ⟨rest, ht, hgroup, hne, hrun, hhead⟩ := hfind.sound hmatch
        have hplain : Plain p seen group := by
          rw [ht, List.append_assoc] at hpassed
          exact plain_word hfind hflat hgroup hpassed
        have hopens : p.Opens (seen ++ group) := ⟨seen, group, rfl, hgroup⟩
        have hshort : rest.length ≤ n := by
          have hpos := List.length_pos_iff.mpr hne
          have hlength := congrArg List.length ht
          simp only [List.length_cons, List.length_append] at hlength hlen
          omega
        have hrest : sub find mark rest = output p mark (.reading []) rest := by
          refine ih rest hshort [] fun x w he hw => ?_
          exact absurd (List.append_eq_nil_iff.mp he.symm).2 hw
        have hread : output p mark (.reading seen) (c :: t) =
            group ++ (mark ++ output p mark (.reading []) rest) := by
          rw [ht, List.append_assoc, output_append, output_plain hplain, after_plain hplain,
            output_run hopens hne hrun, output_masking_of_head hhead]
        rw [sub_of_some hmatch ht hne, hread, hrest, List.append_assoc]

/-- **A substitution writes what a reader writes.** -/
theorem sub_eq_output (hfind : Finds find p) (hflat : Flat p) (t : List α) :
    sub find mark t = output p mark (.reading []) t :=
  sub_eq_output_from hfind hflat t.length t (Nat.le_refl _) [] fun _ _ he hw =>
    absurd (List.append_eq_nil_iff.mp he.symm).2 hw

end Equal

/-! ### Expressions with a run -/

/-- `(group)[cls]+`: the group and the run at the start of a text. -/
def findRun (group : Matcher α) (cls : α → Bool) (t : List α) : Option (List α × List α) :=
  (group t).bind fun g => (plus cls g.2).map fun v => (g.1, v.1)

theorem finds_findRun {group : Matcher α} {l : Language α} {stop cls : α → Bool}
    (h : Reads group l stop) (hstop : ∀ c, cls c = true → stop c = false) :
    Finds (findRun group cls) ⟨(· ∈ l), cls⟩ := by
  constructor
  · intro text g v hfind
    obtain ⟨⟨g', rest⟩, hg, hmap⟩ := Option.bind_eq_some_iff.mp hfind
    obtain ⟨⟨v', rest'⟩, hv, heq⟩ := Option.map_eq_some_iff.mp hmap
    cases heq
    obtain ⟨rfl, hgl⟩ := h.sound hg
    obtain ⟨hrest, hne, hrun⟩ := (reads_plus cls).sound hv
    have hstops : ∀ c ∈ rest'.head?, cls c = false := by
      have htail : rest' = rest.dropWhile cls := by
        unfold plus at hv
        split_ifs at hv
        cases hv
        rfl
      rw [htail]
      exact head?_dropWhile cls rest
    exact ⟨rest', by rw [List.append_assoc, ← hrest], hgl, hne, hrun, hstops⟩
  · intro w c hw hc rest hnone
    have hgroup : group (w ++ c :: rest) = some (w, c :: rest) :=
      h.complete hw fun d hd => by
        rw [List.head?_cons, Option.mem_some_iff] at hd
        rw [← hd]
        exact hstop c hc
    have htake : (c :: rest).takeWhile cls ≠ [] := by
      rw [List.takeWhile_cons_of_pos hc]
      exact List.cons_ne_nil _ _
    unfold findRun plus at hnone
    rw [hgroup, Option.bind_some, if_neg htake] at hnone
    cases hnone

end EventServer.Lib.Masking
