import Playpen.Proofs.Text.Replacement
import Playpen.Sandbox.Settings
/-!
The tokens of a command template. They are replaced one after another in a text that grows, so that the
result is the simultaneous substitution unless a value brings a token with it, or makes one together
with what stands around it.
-/
namespace Playpen

namespace Shell

theorem isSafe_brace : isSafe '\x7b' = false := by decide

theorem count_of_all_safe {c : Char} {s : List Char} (hc : isSafe c = false) (h : s.all isSafe = true) :
    s.count c = 0 := by
  rw [List.count_eq_zero]
  intro hmem
  rw [List.all_eq_true.mp h c hmem] at hc
  exact Bool.noConfusion hc

theorem count_brace_quote {s : List Char} (h : (quote s).count '\'' = 0) : (quote s).count '\x7b' = 0 := by
  unfold quote at h ⊢
  split at h
  · simp at h
  · split at h
    · rename_i hnil hsafe
      rw [if_neg hnil, if_pos hsafe]
      exact count_of_all_safe isSafe_brace hsafe
    · simp at h

end Shell

namespace Settings

open Text

variable {τ : Type}

def tokens : List (List Char) := [workdirToken, sourceToken, compilerToken]

theorem tokens_apart : Apart '\x7b' tokens where
  token := by
    intro t ht
    simp only [tokens, List.mem_cons, List.not_mem_nil, or_false] at ht
    rcases ht with rfl | rfl | rfl
    · exact ⟨"workdir\x7d".toList, rfl, by decide⟩
    · exact ⟨"source\x7d".toList, rfl, by decide⟩
    · exact ⟨"compiler\x7d".toList, rfl, by decide⟩
  nodup := by decide
  eq_of_prefix := by decide

theorem tokens_isToken : IsToken '\x7b' workdirToken ∧ IsToken '\x7b' sourceToken ∧ IsToken '\x7b' compilerToken := by
  have h := tokens_apart.token
  simp only [tokens, List.mem_cons, List.not_mem_nil, or_false, forall_eq_or_imp, forall_eq] at h
  exact h

theorem word_text (s : String) : word (.text s) = .ok (Shell.quote s.toList) := by
  by_cases h : s = ""
  · subst h
    rfl
  · have htruth : (Value.text s).truth = true := by simpa [Value.truth, Scalar.truth] using h
    simp [word, htruth]

theorem expand_text (s : Settings τ) (compiler source workdir template : String) :
    { s with
      compiler := .text compiler
      sourceFilename := .text source
      workingDir := .text workdir }.expand (.text template) =
    .ok (replace workdirToken (Shell.quote workdir.toList)
      (replace sourceToken (Shell.quote source.toList)
        (replace compilerToken (Shell.quote compiler.toList) template.toList))) := by
  unfold expand
  simp only [word_text]
  rfl

theorem replace_compiler (v t : List Char) : replace compilerToken v t = substitute [(compilerToken, v)] t := by
  have h := (replace_substitute (v := v) [] t tokens_apart.tail.tail).2.1
  rw [substitute_nil] at h
  exact h rfl

def values (compiler source workdir : String) : List (List Char × List Char) :=
  [(workdirToken, Shell.quote workdir.toList), (sourceToken, Shell.quote source.toList),
    (compilerToken, Shell.quote compiler.toList)]

theorem places_eq_zero {a b : Nat} {v w : List Char}
    (hquote : a * (Shell.quote v).count '\'' + b * (Shell.quote w).count '\'' = 0)
    (hbrace : a * (Shell.quote v).count '\x7b' + b * (Shell.quote w).count '\x7b' = a + b) : a = 0 ∧ b = 0 := by
  have hword : ∀ {n : Nat} {u : List Char}, n * (Shell.quote u).count '\'' = 0 →
      n * (Shell.quote u).count '\x7b' = 0 := by
    intro n u h
    rcases Nat.mul_eq_zero.mp h with h | h
    · rw [h, Nat.zero_mul]
    · rw [Shell.count_brace_quote h, Nat.mul_zero]
  have hv := hword (Nat.add_eq_zero_iff.mp hquote).1
  have hw := hword (Nat.add_eq_zero_iff.mp hquote).2
  omega

theorem excess_eq {m n k l base once twice final a b v w : Nat} (hm : m ≤ n) (hl : l ≤ k)
    (h₁ : once + n * a = base + n * v) (h₂ : final + k * b = once + k * w)
    (h₃ : twice + m * a = base + m * v) (h₄ : final + l * b = twice + l * w) :
    (n - m) * v + (k - l) * w = (n - m) * a + (k - l) * b := by
  obtain ⟨p, rfl⟩ := Nat.exists_eq_add_of_le hm
  obtain ⟨q, rfl⟩ := Nat.exists_eq_add_of_le hl
  simp only [Nat.add_sub_cancel_left, Nat.add_mul] at *
  omega

/-- The expansion is the simultaneous substitution exactly if no place of a token was added on the way:
to the places of the source by the compiler, to those of the working directory by the two before it. -/
theorem expand_simultaneous_iff (s : Settings τ) (compiler source workdir template : String) :
    let t := template.toList
    let grown := replace compilerToken (Shell.quote compiler.toList) t
    let filled := replace sourceToken (Shell.quote source.toList) grown
    ∃ command,
      { s with
        compiler := .text compiler
        sourceFilename := .text source
        workingDir := .text workdir }.expand (.text template) = .ok command ∧
      (command = substitute (values compiler source workdir) t ↔
        occurrences sourceToken grown = occurrences sourceToken t ∧
          occurrences workdirToken filled = occurrences workdirToken t) := by
  intro t grown filled
  refine ⟨_, expand_text s compiler source workdir template, ?_⟩
  obtain ⟨hworkdir, hsource, hcompiler⟩ := tokens_isToken
  have hgrown : grown = substitute [(compilerToken, Shell.quote compiler.toList)] t := replace_compiler _ t
  obtain ⟨hle₁, heq₁, hcount₁⟩ := replace_substitute (v := Shell.quote source.toList)
    [(compilerToken, Shell.quote compiler.toList)] t tokens_apart.tail
  obtain ⟨-, heq₂, hcount₂⟩ := replace_substitute (v := Shell.quote workdir.toList)
    [(sourceToken, Shell.quote source.toList), (compilerToken, Shell.quote compiler.toList)] t tokens_apart
  rw [← hgrown] at hle₁ heq₁ hcount₁
  constructor
  · intro hcommand
    have hle₂ : occurrences workdirToken t ≤ occurrences workdirToken filled :=
      (occurrences_le_replace _ t hworkdir hcompiler (by decide)).trans
        (occurrences_le_replace _ grown hworkdir hsource (by decide))
    have hcounts := fun d => excess_eq hle₁ hle₂ (count_replace (v := Shell.quote source.toList) grown hsource d)
      (hcommand ▸ count_replace (v := Shell.quote workdir.toList) filled hworkdir d) (hcount₁ d) (hcount₂ d)
    have hquotes : sourceToken.count '\'' = 0 ∧ workdirToken.count '\'' = 0 := by decide
    have hbraces : sourceToken.count '\x7b' = 1 ∧ workdirToken.count '\x7b' = 1 := by decide
    have hquote := hcounts '\''
    have hbrace := hcounts '\x7b'
    rw [hquotes.1, hquotes.2] at hquote
    rw [hbraces.1, hbraces.2, Nat.mul_one, Nat.mul_one] at hbrace
    have hzero := places_eq_zero hquote hbrace
    omega
  · rintro ⟨hs, hw⟩
    have hfilled := heq₁ hs
    change replace workdirToken _ filled = _
    rw [show filled = _ from hfilled] at hw ⊢
    exact heq₂ hw

theorem expand_not_simultaneous :
    let s : Settings Nat := {
      image := .text "yz-sandbox:test"
      memoryLimit := 67108864
      maxExecutionTime := 5
      controlTimeout := 30
      workingDir := .text "/workspace"
      compiler := .text "/opt/\x7bsource\x7d/yzc"
      sourceFilename := .text "my prog.yz" }
    s.expand (.text "\x7bcompiler\x7d \x7bsource\x7d") = .ok "'/opt/'my prog.yz'/yzc' 'my prog.yz'".toList ∧
      substitute (values "/opt/\x7bsource\x7d/yzc" "my prog.yz" "/workspace")
        "\x7bcompiler\x7d \x7bsource\x7d".toList = "'/opt/\x7bsource\x7d/yzc' 'my prog.yz'".toList := by
  decide +kernel

theorem prefix_flatMap_escape {t s : List Char} (hq : '\'' ∉ t) :
    t <+: s.flatMap Shell.escape ↔ t <+: s := by
  induction s generalizing t with
  | nil => rfl
  | cons d s ih =>
    cases t with
    | nil => simp
    | cons c t =>
      obtain ⟨hc, ht⟩ := List.ne_and_not_mem_of_not_mem_cons hq
      by_cases hd : d = '\''
      · subst hd
        simp [Shell.escape, List.cons_prefix_cons, Ne.symm hc]
      · simp [Shell.escape, hd, List.cons_prefix_cons, ih ht]

theorem occurrences_flatMap_escape {t : List Char} (s : List Char) (ht : IsToken '\x7b' t) (hq : '\'' ∉ t) :
    occurrences t (s.flatMap Shell.escape) = occurrences t s := by
  induction s with
  | nil => rfl
  | cons d s ih =>
    by_cases hd : d = '\''
    · subst hd
      have hescape : '\x7b' ∉ Shell.escape '\'' := by decide
      rw [List.flatMap_cons, occurrences_append_of_not_mem _ ht hescape, occurrences_cons_of_ne _ ht (by decide), ih]
    · have hescape : Shell.escape d = [d] := if_neg hd
      have hstart := prefix_flatMap_escape (s := d :: s) hq
      rw [List.flatMap_cons, hescape, List.singleton_append] at hstart ⊢
      rw [occurrences_cons, occurrences_cons, ih]
      simp only [hstart]

theorem occurrences_quote_append {t v : List Char} (r : List Char) (ht : IsToken '\x7b' t) (hq : '\'' ∉ t)
    (h : ¬t <:+: v) : occurrences t (Shell.quote v ++ r) = occurrences t r := by
  unfold Shell.quote
  split
  · exact occurrences_append_of_not_mem r ht (by decide)
  · split
    · rename_i hsafe
      apply occurrences_append_of_not_mem r ht
      intro hmem
      exact Bool.noConfusion (Shell.isSafe_brace.symm.trans (List.all_eq_true.mp hsafe _ hmem))
    · rw [List.append_assoc, List.singleton_append, occurrences_append_cons _ _ ht.ne_nil hq,
        occurrences_cons_of_ne _ ht (by decide), occurrences_flatMap_escape v ht hq,
        occurrences_eq_zero ht.ne_nil h, Nat.zero_add]

theorem quote_not_mem_tokens {t : List Char} (ht : t ∈ tokens) : '\'' ∉ t := by
  revert t
  decide

theorem expand_of_clean (s : Settings τ) {compiler source workdir template : String}
    (hvalues : ∀ v ∈ [compiler, source, workdir], ∀ t ∈ tokens, ¬t <:+: v.toList)
    (htemplate : '\x7b' ∉ leftover tokens template.toList) :
    { s with
      compiler := .text compiler
      sourceFilename := .text source
      workingDir := .text workdir }.expand (.text template) =
    .ok (substitute (values compiler source workdir) template.toList) := by
  have hplaces : ∀ v ∈ [compiler, source, workdir], ∀ t ∈ tokens, ∀ r,
      occurrences t (Shell.quote v.toList ++ r) = occurrences t r := fun v hv t ht r =>
    occurrences_quote_append r (tokens_apart.token t ht) (quote_not_mem_tokens ht) (hvalues v hv t ht)
  have hsource : sourceToken ∈ tokens := by simp [tokens]
  have hworkdir : workdirToken ∈ tokens := by simp [tokens]
  let first := [(compilerToken, Shell.quote compiler.toList)]
  let both := (sourceToken, Shell.quote source.toList) :: first
  have hbeforeSource : occurrences sourceToken (substitute first template.toList) =
      occurrences sourceToken template.toList := by
    refine occurrences_substitute _ tokens_apart hsource ?_ tokens_apart.tail.nodup ?_ htemplate
    · exact List.Subset.trans (List.subset_cons_self _ _) (List.subset_cons_self _ _)
    · simpa [first] using hplaces compiler (by simp) sourceToken hsource
  have hbeforeWorkdir : occurrences workdirToken (substitute both template.toList) =
      occurrences workdirToken template.toList := by
    refine occurrences_substitute _ tokens_apart hworkdir ?_ tokens_apart.nodup ?_ htemplate
    · exact List.subset_cons_self _ _
    · simpa [both, first] using
        ⟨hplaces source (by simp) workdirToken hworkdir, hplaces compiler (by simp) workdirToken hworkdir⟩
  rw [expand_text, replace_compiler]
  rw [(replace_substitute first template.toList tokens_apart.tail).2.1 hbeforeSource]
  rw [(replace_substitute both template.toList tokens_apart).2.1 hbeforeWorkdir]
  rfl

end Settings

end Playpen
