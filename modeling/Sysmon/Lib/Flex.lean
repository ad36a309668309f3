import Mathlib.Data.List.Basic

/-!
# Scanners by longest match

A scanner in the manner of `lex` is a list of rules, each a pattern with an action. At every place
the rule that matches the most text is taken, of several the first. A pattern here is a sequence of
character classes, each to be met once, any number of times, or at least once, which is all that the
patterns of a configuration language tend to need. `longest` computes the length of the longest
match by looking at every way to divide the text among the classes, and `longest_spec` says so in
terms of the words the pattern describes. What a scanner returns covers its input
(`flatten_scan`), and a rule is taken exactly where no rule has more to say
(`choose_spec`).
-/

namespace Flex

inductive Rep where
  | one
  | star
  | plus
  deriving DecidableEq, Repr

structure Item (σ : Type*) where
  cls : σ → Bool
  rep : Rep

abbrev Pattern (σ : Type*) := List (Item σ)

variable {σ α : Type*}

/-! ### What a pattern describes -/

def Item.Matches (item : Item σ) (word : List σ) : Prop :=
  match item.rep with
  | .one => ∃ c, word = [c] ∧ item.cls c = true
  | .star => ∀ c ∈ word, item.cls c = true
  | .plus => word ≠ [] ∧ ∀ c ∈ word, item.cls c = true

def Pattern.Matches : Pattern σ → List σ → Prop
  | [], word => word = []
  | item :: rest, word => ∃ first second, word = first ++ second ∧ item.Matches first ∧
      Matches rest second

/-! ### The longest match -/

def longer : Option Nat → Option Nat → Option Nat
  | some m, some n => some (max m n)
  | some m, none => some m
  | none, n => n

/-- As many symbols of the class as one likes, then what `next` finds. -/
def starThen (cls : σ → Bool) (next : List σ → Option Nat) : List σ → Option Nat
  | [] => next []
  | c :: text =>
      longer (if cls c then (starThen cls next text).map (· + 1) else none) (next (c :: text))

/-- One symbol of the class, then what `next` finds. -/
def oneThen (cls : σ → Bool) (next : List σ → Option Nat) : List σ → Option Nat
  | [] => none
  | c :: text => if cls c then (next text).map (· + 1) else none

/-- The length of the longest prefix that matches. -/
def Pattern.longest : Pattern σ → List σ → Option Nat
  | [], _ => some 0
  | item :: rest, text =>
      match item.rep with
      | .one => oneThen item.cls (longest rest) text
      | .star => starThen item.cls (longest rest) text
      | .plus => oneThen item.cls (starThen item.cls (longest rest)) text

/-- The function gives the length of the longest prefix with the property. -/
structure Finds (find : List σ → Option Nat) (L : List σ → Prop) : Prop where
  sound : ∀ text n, find text = some n → ∃ word rest, text = word ++ rest ∧ word.length = n ∧ L word
  greedy : ∀ word rest, L word → ∃ n, find (word ++ rest) = some n ∧ word.length ≤ n

theorem le_longer_left {m : Nat} (n : Option Nat) : ∃ k, longer (some m) n = some k ∧ m ≤ k := by
  cases n with
  | none => exact ⟨m, rfl, Nat.le_refl m⟩
  | some n => exact ⟨max m n, rfl, Nat.le_max_left m n⟩

theorem le_longer_right {n : Nat} (m : Option Nat) : ∃ k, longer m (some n) = some k ∧ n ≤ k := by
  cases m with
  | none => exact ⟨n, rfl, Nat.le_refl n⟩
  | some m => exact ⟨max m n, rfl, Nat.le_max_right m n⟩

theorem longer_eq_some {m n : Option Nat} {k : Nat} (h : longer m n = some k) :
    m = some k ∨ n = some k := by
  cases m with
  | none => exact Or.inr h
  | some m =>
      cases n with
      | none => exact Or.inl h
      | some n =>
          have hmax : max m n = k := Option.some.inj h
          obtain hle | hle := Nat.le_total m n
          · exact Or.inr (by rw [← hmax, Nat.max_eq_right hle])
          · exact Or.inl (by rw [← hmax, Nat.max_eq_left hle])

section Then

variable (cls : σ → Bool) {next : List σ → Option Nat} {L : List σ → Prop}

theorem finds_oneThen (h : Finds next L) :
    Finds (oneThen cls next) fun word => ∃ c rest, word = c :: rest ∧ cls c = true ∧ L rest := by
  constructor
  · intro text n hfind
    cases text with
    | nil => exact absurd hfind (by simp [oneThen])
    | cons c text =>
        by_cases hc : cls c = true
        · rw [oneThen, if_pos hc] at hfind
          obtain ⟨m, hm, rfl⟩ := Option.map_eq_some_iff.mp hfind
          obtain ⟨word, rest, rfl, rfl, hword⟩ := h.sound text m hm
          exact ⟨c :: word, rest, rfl, rfl, c, word, rfl, hc, hword⟩
        · rw [oneThen, if_neg hc] at hfind
          exact absurd hfind (by simp)
  · rintro - rest ⟨c, word, rfl, hc, hword⟩
    obtain ⟨n, hn, hle⟩ := h.greedy word rest hword
    refine ⟨n + 1, ?_, by simpa using hle⟩
    rw [List.cons_append, oneThen, if_pos hc, hn]
    rfl

theorem finds_starThen (h : Finds next L) :
    Finds (starThen cls next) fun word =>
      ∃ first second, word = first ++ second ∧ (∀ c ∈ first, cls c = true) ∧ L second := by
  constructor
  · intro text
    induction text with
    | nil =>
        intro n hfind
        obtain ⟨word, rest, htext, hlen, hword⟩ := h.sound [] n hfind
        exact ⟨word, rest, htext, hlen, [], word, rfl, by simp, hword⟩
    | cons c text ih =>
        intro n hfind
        rw [starThen] at hfind
        obtain hmore | hnext := longer_eq_some hfind
        · by_cases hc : cls c = true
          · rw [if_pos hc] at hmore
            obtain ⟨m, hm, rfl⟩ := Option.map_eq_some_iff.mp hmore
            obtain ⟨word, rest, rfl, rfl, first, second, rfl, hfirst, hsecond⟩ := ih m hm
            refine ⟨c :: (first ++ second), rest, rfl, rfl, c :: first, second, rfl, ?_, hsecond⟩
            intro d hd
            obtain rfl | hd := List.mem_cons.mp hd
            · exact hc
            · exact hfirst d hd
          · rw [if_neg hc] at hmore
            exact absurd hmore (by simp)
        · obtain ⟨word, rest, htext, hlen, hword⟩ := h.sound (c :: text) n hnext
          exact ⟨word, rest, htext, hlen, [], word, rfl, by simp, hword⟩
  · rintro - rest ⟨first, second, rfl, hfirst, hsecond⟩
    induction first with
    | nil =>
        obtain ⟨n, hn, hle⟩ := h.greedy second rest hsecond
        rw [List.nil_append]
        cases htext : second ++ rest with
        | nil => exact ⟨n, by rw [starThen, ← htext, hn], hle⟩
        | cons c text =>
            rw [starThen, ← htext, hn]
            obtain ⟨k, hk, hnk⟩ := le_longer_right (n := n)
              (if cls c then (starThen cls next text).map (· + 1) else none)
            exact ⟨k, hk, Nat.le_trans hle hnk⟩
    | cons c first ih =>
        obtain ⟨n, hn, hle⟩ := ih fun d hd => hfirst d (List.mem_cons_of_mem c hd)
        have hc : cls c = true := hfirst c List.mem_cons_self
        rw [List.cons_append, List.cons_append, starThen, if_pos hc, hn]
        obtain ⟨k, hk, hnk⟩ := le_longer_left (m := n + 1) (next (c :: (first ++ second ++ rest)))
        refine ⟨k, hk, ?_⟩
        rw [List.length_cons]
        exact Nat.le_trans (Nat.succ_le_succ hle) hnk

end Then

theorem Finds.congr {find : List σ → Option Nat} {L L' : List σ → Prop} (h : Finds find L)
    (hL : ∀ word, L word ↔ L' word) : Finds find L' := by
  have heq : L = L' := funext fun word => propext (hL word)
  rw [← heq]
  exact h

theorem longest_spec (pattern : Pattern σ) : Finds pattern.longest pattern.Matches := by
  induction pattern with
  | nil =>
      constructor
      · intro text n hfind
        exact ⟨[], text, rfl, Option.some.inj hfind, rfl⟩
      · intro word rest hword
        have hnil : word = [] := hword
        exact ⟨0, rfl, by simp [hnil]⟩
  | cons item rest ih =>
      obtain ⟨cls, rep⟩ := item
      cases rep with
      | one =>
          refine (finds_oneThen cls ih).congr fun word => ?_
          constructor
          · rintro ⟨c, second, rfl, hc, hsecond⟩
            exact ⟨[c], second, rfl, ⟨c, rfl, hc⟩, hsecond⟩
          · rintro ⟨-, second, rfl, ⟨c, rfl, hc⟩, hsecond⟩
            exact ⟨c, second, rfl, hc, hsecond⟩
      | star => exact finds_starThen cls ih
      | plus =>
          refine (finds_oneThen cls (finds_starThen cls ih)).congr fun word => ?_
          constructor
          · rintro ⟨c, -, rfl, hc, first, second, rfl, hfirst, hsecond⟩
            refine ⟨c :: first, second, rfl, ⟨List.cons_ne_nil c first, ?_⟩, hsecond⟩
            intro d hd
            obtain rfl | hd := List.mem_cons.mp hd
            · exact hc
            · exact hfirst d hd
          · rintro ⟨first, second, rfl, ⟨hne, hfirst⟩, hsecond⟩
            obtain ⟨c, first, rfl⟩ := List.exists_cons_of_ne_nil hne
            refine ⟨c, first ++ second, rfl, hfirst c List.mem_cons_self, first, second, rfl, ?_, hsecond⟩
            exact fun d hd => hfirst d (List.mem_cons_of_mem c hd)

/-! ### Texts that begin in a given way -/

/-- No text that begins with these symbols has anything in it for the pattern. -/
def Pattern.rejects : Pattern σ → List σ → Bool
  | item :: rest, c :: word =>
      match item.rep with
      | .one => !item.cls c || Pattern.rejects rest word
      | .star => false
      | .plus => !item.cls c
  | _, _ => false

theorem longest_of_rejects {pattern : Pattern σ} {word : List σ} (h : pattern.rejects word = true) (text : List σ) :
    pattern.longest (word ++ text) = none := by
  induction pattern generalizing word with
  | nil => contradiction
  | cons item rest ih =>
      obtain ⟨cls, rep⟩ := item
      cases word with
      | nil => contradiction
      | cons c word =>
          rw [Pattern.rejects] at h
          rw [List.cons_append, Pattern.longest]
          cases rep with
          | one =>
              by_cases hc : cls c = true
              · have hrest : Pattern.rejects rest word = true := by simpa [hc] using h
                simp only [oneThen, hc, if_true, ih hrest, Option.map_none]
              · simp only [oneThen, hc]
                rfl
          | star => contradiction
          | plus =>
              have hc : cls c = false := by simpa using h
              simp only [oneThen, hc]
              rfl

theorem matches_append {left right : Pattern σ} {first second : List σ} (hfirst : left.Matches first)
    (hsecond : right.Matches second) : Pattern.Matches (left ++ right) (first ++ second) := by
  induction left generalizing first with
  | nil =>
      obtain rfl : first = [] := hfirst
      exact hsecond
  | cons item left ih =>
      obtain ⟨head, rest, rfl, hhead, hrest⟩ := hfirst
      exact ⟨head, rest ++ second, List.append_assoc _ _ _, hhead, ih hrest⟩

/-- The symbol can only be the last one of a match. -/
def Pattern.endsAt (c : σ) : Pattern σ → Bool
  | [] => false
  | [item] => decide (item.rep = .one)
  | item :: rest => !item.cls c && Pattern.endsAt c rest

theorem not_mem_of_endsAt {c : σ} {pattern : Pattern σ} (hends : pattern.endsAt c = true) {word : List σ}
    (h : pattern.Matches word) : ∃ first last, word = first ++ [last] ∧ c ∉ first := by
  induction pattern generalizing word with
  | nil => contradiction
  | cons item rest ih =>
      obtain ⟨cls, rep⟩ := item
      obtain ⟨first, second, rfl, hfirst, hsecond⟩ := h
      cases rest with
      | nil =>
          obtain rfl : second = [] := hsecond
          obtain rfl : rep = .one := of_decide_eq_true hends
          obtain ⟨d, rfl, -⟩ := hfirst
          exact ⟨[], d, rfl, by simp⟩
      | cons next rest =>
          have hboth : cls c = false ∧ Pattern.endsAt c (next :: rest) = true := by simpa [Pattern.endsAt] using hends
          obtain ⟨init, last, rfl, hinit⟩ := ih hboth.2 hsecond
          refine ⟨first ++ init, last, (List.append_assoc _ _ _).symm, ?_⟩
          intro hmem
          obtain hmem | hmem := List.mem_append.mp hmem
          · have hcls : ∀ d ∈ first, cls d = true := by
              cases rep with
              | one =>
                  obtain ⟨e, rfl, he⟩ := hfirst
                  simpa using he
              | star => exact hfirst
              | plus => exact hfirst.2
            exact absurd ((hcls c hmem).symm.trans hboth.1) (by decide)
          · exact hinit hmem

/-- A match that ends with the symbol, where it comes first, is the longest. -/
theorem length_le_of_endsAt {c : σ} {pattern : Pattern σ} (hends : pattern.endsAt c = true) {text rest : List σ} {n : Nat}
    (hn : pattern.longest (text ++ c :: rest) = some n) : n ≤ text.length + 1 := by
  obtain ⟨word, after, hsplit, rfl, hmatch⟩ := (longest_spec pattern).sound _ _ hn
  obtain ⟨first, last, rfl, hfirst⟩ := not_mem_of_endsAt hends hmatch
  rw [List.length_append, List.length_singleton]
  refine Nat.succ_le_succ (Nat.le_of_not_lt fun hlt => hfirst ?_)
  rw [List.append_assoc] at hsplit
  obtain ⟨more, rfl, hmore⟩ | ⟨more, rfl, -⟩ := List.append_eq_append_iff.mp hsplit
  · cases more with
    | nil => simp at hlt
    | cons d more =>
        rw [List.cons_append] at hmore
        rw [(List.cons.inj hmore).1]
        exact List.mem_append_right _ List.mem_cons_self
  · rw [List.length_append] at hlt
    omega

theorem longest_eq_of_endsAt {c : σ} {pattern : Pattern σ} (hends : pattern.endsAt c = true) {text : List σ}
    (hmatch : pattern.Matches (text ++ [c])) (rest : List σ) :
    pattern.longest (text ++ c :: rest) = some (text.length + 1) := by
  obtain ⟨n, hn, hle⟩ := (longest_spec pattern).greedy (text ++ [c]) rest hmatch
  rw [List.append_assoc, List.singleton_append] at hn
  rw [List.length_append, List.length_singleton] at hle
  rw [hn, Nat.le_antisymm (length_le_of_endsAt hends hn) hle]

/-! ### Choosing a rule -/

structure Rule (σ α : Type*) where
  pattern : Pattern σ
  action : α

/-- The rule with the longest match, of several the first, and the length of the match. -/
def choose : List (Rule σ α) → List σ → Option (Nat × Rule σ α)
  | [], _ => none
  | rule :: rules, text =>
      match rule.pattern.longest text, choose rules text with
      | some n, some (m, other) => if m ≤ n then some (n, rule) else some (m, other)
      | some n, none => some (n, rule)
      | none, best => best

/-- The rule is the one to take: those before it match less, those after it no more. -/
structure Chosen (rules : List (Rule σ α)) (text : List σ) (n : Nat) (rule : Rule σ α)
    (before after : List (Rule σ α)) : Prop where
  split : rules = before ++ rule :: after
  here : rule.pattern.longest text = some n
  less : ∀ other ∈ before, ∀ m, other.pattern.longest text = some m → m < n
  noMore : ∀ other ∈ after, ∀ m, other.pattern.longest text = some m → m ≤ n

theorem Chosen.le {rules before after : List (Rule σ α)} {text : List σ} {n m : Nat}
    {rule other : Rule σ α} (h : Chosen rules text n rule before after) (hmem : other ∈ rules)
    (hm : other.pattern.longest text = some m) : m ≤ n := by
  rw [h.split] at hmem
  obtain hmem | hmem := List.mem_append.mp hmem
  · exact Nat.le_of_lt (h.less other hmem m hm)
  · obtain rfl | hmem := List.mem_cons.mp hmem
    · exact Nat.le_of_eq (Option.some.inj (hm.symm.trans h.here))
    · exact h.noMore other hmem m hm

theorem choose_none {rules : List (Rule σ α)} {text : List σ} (h : choose rules text = none) :
    ∀ rule ∈ rules, rule.pattern.longest text = none := by
  induction rules with
  | nil => simp
  | cons first rules ih =>
      rw [choose] at h
      cases hfirst : first.pattern.longest text with
      | some n =>
          rw [hfirst] at h
          split at h
          · split at h <;> exact absurd h (by simp)
          · exact absurd h (by simp)
          · contradiction
      | none =>
          rw [hfirst] at h
          simp only [List.mem_cons, forall_eq_or_imp]
          exact ⟨hfirst, ih h⟩

theorem choose_spec {rules : List (Rule σ α)} {text : List σ} {n : Nat} {rule : Rule σ α}
    (h : choose rules text = some (n, rule)) :
    ∃ before after, Chosen rules text n rule before after := by
  induction rules generalizing n rule with
  | nil => exact absurd h (by simp [choose])
  | cons first rules ih =>
      rw [choose] at h
      cases hfirst : first.pattern.longest text with
      | none =>
          rw [hfirst] at h
          obtain ⟨before, after, hbest⟩ := ih h
          refine ⟨first :: before, after, by rw [hbest.split]; rfl, hbest.here, ?_, hbest.noMore⟩
          intro other hmem m hm
          obtain rfl | hmem := List.mem_cons.mp hmem
          · exact absurd (hfirst.symm.trans hm) (by simp)
          · exact hbest.less other hmem m hm
      | some k =>
          rw [hfirst] at h
          cases hrest : choose rules text with
          | none =>
              rw [hrest] at h
              obtain ⟨rfl, rfl⟩ := Prod.mk.inj (Option.some.inj h)
              refine ⟨[], rules, rfl, hfirst, by simp, fun other hmem m hm => ?_⟩
              exact absurd ((choose_none hrest other hmem).symm.trans hm) (by simp)
          | some best =>
              obtain ⟨m, other⟩ := best
              obtain ⟨before, after, hbest⟩ := ih hrest
              rw [hrest] at h
              dsimp only at h
              by_cases hle : m ≤ k
              · rw [if_pos hle] at h
                obtain ⟨rfl, rfl⟩ := Prod.mk.inj (Option.some.inj h)
                refine ⟨[], rules, rfl, hfirst, by simp, fun one hmem j hj => ?_⟩
                exact Nat.le_trans (hbest.le hmem hj) hle
              · rw [if_neg hle] at h
                obtain ⟨rfl, rfl⟩ := Prod.mk.inj (Option.some.inj h)
                refine ⟨first :: before, after, by rw [hbest.split]; rfl, hbest.here, ?_, hbest.noMore⟩
                intro one hmem j hj
                obtain rfl | hmem := List.mem_cons.mp hmem
                · have heq : j = k := Option.some.inj (hj.symm.trans hfirst)
                  exact heq ▸ Nat.lt_of_not_le hle
                · exact hbest.less one hmem j hj

/-! ### Scanning -/

/-- The action for the text, and how many symbols after the first are matched. Where no rule has
anything to match, one symbol is passed over. -/
def munch (rules : List (Rule σ α)) (other : α) (text : List σ) : α × Nat :=
  match choose rules text with
  | some (n + 1, rule) => (rule.action, n)
  | _ => (other, 0)

/-- The actions for the text, each with what was matched. A scanner never needs more steps than
there are symbols. -/
def scan (rules : List (Rule σ α)) (other : α) : Nat → List σ → List (α × List σ)
  | 0, _ => []
  | _, [] => []
  | fuel + 1, c :: text =>
      let (action, n) := munch rules other (c :: text)
      (action, c :: text.take n) :: scan rules other fuel (text.drop n)

theorem flatten_scan (rules : List (Rule σ α)) (other : α) {fuel : Nat} {text : List σ}
    (h : text.length ≤ fuel) : ((scan rules other fuel text).map Prod.snd).flatten = text := by
  induction fuel generalizing text with
  | zero => rw [List.length_eq_zero_iff.mp (Nat.le_zero.mp h), scan, List.map_nil, List.flatten_nil]
  | succ fuel ih =>
      cases text with
      | nil => rfl
      | cons c text =>
          have hrest : (text.drop (munch rules other (c :: text)).2).length ≤ fuel := by
            rw [List.length_drop]
            exact Nat.le_trans (Nat.sub_le _ _) (Nat.le_of_succ_le_succ h)
          rw [scan, List.map_cons, List.flatten_cons, ih hrest, List.cons_append,
            List.take_append_drop]

/-- A scanner that has enough steps does the same with more. -/
theorem scan_of_le (rules : List (Rule σ α)) (other : α) {fuel : Nat} {text : List σ} (h : text.length ≤ fuel) :
    scan rules other fuel text = scan rules other text.length text := by
  have hboth : ∀ (n fuel fuel' : Nat) (text : List σ), text.length ≤ n → text.length ≤ fuel → text.length ≤ fuel' →
      scan rules other fuel text = scan rules other fuel' text := by
    intro n
    induction n with
    | zero =>
        intro fuel fuel' text hn _ _
        obtain rfl := List.length_eq_zero_iff.mp (Nat.le_zero.mp hn)
        cases fuel <;> cases fuel' <;> rfl
    | succ n ih =>
        intro fuel fuel' text hn hfuel hfuel'
        cases text with
        | nil => cases fuel <;> cases fuel' <;> rfl
        | cons c text =>
            obtain ⟨fuel, rfl⟩ := Nat.exists_eq_add_one_of_ne_zero (Nat.ne_of_gt (Nat.lt_of_lt_of_le (Nat.succ_pos _) hfuel))
            obtain ⟨fuel', rfl⟩ := Nat.exists_eq_add_one_of_ne_zero (Nat.ne_of_gt (Nat.lt_of_lt_of_le (Nat.succ_pos _) hfuel'))
            have hdrop : ∀ k, (text.drop k).length ≤ text.length := fun k => by
              rw [List.length_drop]
              exact Nat.sub_le _ _
            simp only [List.length_cons, Nat.add_le_add_iff_right] at hn hfuel hfuel'
            rw [scan, scan]
            generalize munch rules other (c :: text) = found
            obtain ⟨action, k⟩ := found
            dsimp only
            rw [ih fuel fuel' _ (Nat.le_trans (hdrop k) hn) (Nat.le_trans (hdrop k) hfuel) (Nat.le_trans (hdrop k) hfuel')]
  exact hboth text.length fuel text.length text (Nat.le_refl _) h (Nat.le_refl _)

/-- Where a rule has a match, one is taken whose match is no shorter. -/
theorem munch_of_match {rules : List (Rule σ α)} (other : α) {text : List σ} {m : Nat} {rule : Rule σ α}
    (hmem : rule ∈ rules) (h : rule.pattern.longest text = some (m + 1)) :
    ∃ taken ∈ rules, taken.action = (munch rules other text).1 ∧
      taken.pattern.longest text = some ((munch rules other text).2 + 1) ∧ m ≤ (munch rules other text).2 := by
  cases hchoose : choose rules text with
  | none => exact absurd ((choose_none hchoose rule hmem).symm.trans h) (by simp)
  | some best =>
      obtain ⟨n, taken⟩ := best
      obtain ⟨before, after, hchosen⟩ := choose_spec hchoose
      have htaken : taken ∈ rules := by
        rw [hchosen.split]
        simp
      have hle : m + 1 ≤ n := hchosen.le hmem h
      obtain ⟨n, rfl⟩ := Nat.exists_eq_add_one_of_ne_zero (Nat.ne_of_gt (Nat.lt_of_lt_of_le (Nat.succ_pos m) hle))
      have hmunch : munch rules other text = (taken.action, n) := by rw [munch, hchoose]
      rw [hmunch]
      exact ⟨taken, htaken, rfl, hchosen.here, Nat.le_of_succ_le_succ hle⟩

/-- An action that is not for want of a rule is that of a rule with a match of that length. -/
theorem munch_rule {rules : List (Rule σ α)} {other : α} {text : List σ} (h : (munch rules other text).1 ≠ other) :
    ∃ rule ∈ rules, rule.action = (munch rules other text).1 ∧
      rule.pattern.longest text = some ((munch rules other text).2 + 1) := by
  by_cases hmatch : ∃ rule ∈ rules, ∃ m, rule.pattern.longest text = some (m + 1)
  · obtain ⟨rule, hmem, m, hm⟩ := hmatch
    obtain ⟨taken, htaken, haction, hlongest, -⟩ := munch_of_match other hmem hm
    exact ⟨taken, htaken, haction, hlongest⟩
  · refine absurd ?_ h
    rw [munch]
    split
    · rename_i n taken hchoose
      obtain ⟨before, after, hchosen⟩ := choose_spec hchoose
      have htaken : taken ∈ rules := by
        rw [hchosen.split]
        simp
      exact absurd ⟨taken, htaken, n, hchosen.here⟩ hmatch
    · rfl

/-- Every token is a match of a rule with its action. -/
theorem scan_sound {rules : List (Rule σ α)} {other : α} {fuel : Nat} {text : List σ} {token : α × List σ}
    (h : token ∈ scan rules other fuel text) (hne : token.1 ≠ other) :
    ∃ rule ∈ rules, rule.action = token.1 ∧ rule.pattern.Matches token.2 := by
  induction fuel generalizing text with
  | zero => exact absurd h List.not_mem_nil
  | succ fuel ih =>
      cases text with
      | nil => exact absurd h List.not_mem_nil
      | cons c text =>
          rw [scan] at h
          obtain rfl | h := List.mem_cons.mp h
          · obtain ⟨rule, hrule, haction, hlongest⟩ := munch_rule hne
            obtain ⟨word, rest, htext, hlength, hmatch⟩ := (longest_spec rule.pattern).sound _ _ hlongest
            refine ⟨rule, hrule, haction, ?_⟩
            have hword : word = (c :: text).take ((munch rules other (c :: text)).2 + 1) := by
              rw [← hlength, htext, List.take_left]
            rw [List.take_succ_cons] at hword
            exact hword ▸ hmatch
          · exact ih h

end Flex
