import Playpen.Proofs.Command.Expansion
/-!
What a shell makes of a command: words and operators. The reader knows blanks, operators, single quotes
and double quotes, and gives up on everything that would ask the shell for more: backslashes, expansions,
patterns and comments.
-/
namespace Playpen.Shell

inductive Token
  | word (s : List Char)
  | operator (s : List Char)
deriving DecidableEq, Repr

inductive Mode
  | bare
  | single
  | double

def isOperator (c : Char) : Bool := ['&', '|', ';', '<', '>', '(', ')', '\n'].contains c

def isLongOperator (c d : Char) : Bool :=
  [['&', '&'], ['|', '|'], [';', ';'], ['<', '<'], ['>', '>'], ['<', '&'], ['>', '&'], ['<', '>'],
    ['>', '|']].contains [c, d]

def isExpanded (c : Char) : Bool := ['$', '\x60', '\\'].contains c

def isActive (c : Char) : Bool := isExpanded c || ['*', '?', '[', '~', '#'].contains c

def finish (word : Option (List Char)) (tokens : List Token) : List Token :=
  (word.map Token.word).toList ++ tokens

def bareChar (word : Option (List Char)) (c : Char)
    (next : Mode → Option (List Char) → Option (List Token)) : Option (List Token) :=
  if c = '\'' then next .single (some (word.getD []))
  else if c = '"' then next .double (some (word.getD []))
  else if c = ' ' || c = '\t' then (next .bare none).map (finish word)
  else if isOperator c then (next .bare none).map fun tokens => finish word (.operator [c] :: tokens)
  else if isActive c then none
  else next .bare (some (word.getD [] ++ [c]))

def tokensFrom : Mode → Option (List Char) → List Char → Option (List Token)
  | .bare, word, [] => some (finish word [])
  | .single, _, [] | .double, _, [] => none
  | .single, word, c :: rest =>
    if c = '\'' then tokensFrom .bare word rest
    else tokensFrom .single (some (word.getD [] ++ [c])) rest
  | .double, word, c :: rest =>
    if c = '"' then tokensFrom .bare word rest
    else if isExpanded c then none
    else tokensFrom .double (some (word.getD [] ++ [c])) rest
  | .bare, word, c :: rest =>
    match rest with
    | [] => bareChar word c fun mode word => tokensFrom mode word []
    | d :: later =>
      if isLongOperator c d then
        (tokensFrom .bare none later).map fun tokens => finish word (.operator [c, d] :: tokens)
      else bareChar word c fun mode word => tokensFrom mode word (d :: later)

def tokens (s : List Char) : Option (List Token) := tokensFrom .bare none s

variable {word : Option (List Char)}

theorem not_isLongOperator {c d : Char} (h : isOperator c = false) : isLongOperator c d = false := by
  rw [Bool.eq_false_iff]
  intro hlong
  simp only [isLongOperator, List.contains_eq_mem, List.mem_cons, List.cons.injEq, List.not_mem_nil, or_false,
    and_true, decide_eq_true_eq] at hlong
  rcases hlong with ⟨rfl, -⟩ | ⟨rfl, -⟩ | ⟨rfl, -⟩ | ⟨rfl, -⟩ | ⟨rfl, -⟩ | ⟨rfl, -⟩ | ⟨rfl, -⟩ | ⟨rfl, -⟩ | ⟨rfl, -⟩ <;>
    exact Bool.noConfusion h

theorem tokensFrom_bare {c : Char} (rest : List Char) (h : isOperator c = false) :
    tokensFrom .bare word (c :: rest) = bareChar word c fun mode word => tokensFrom mode word rest := by
  cases rest with
  | nil => rfl
  | cons d rest => simp [tokensFrom, not_isLongOperator h]

theorem tokensFrom_single (rest : List Char) :
    tokensFrom .bare word ('\'' :: rest) = tokensFrom .single (some (word.getD [])) rest :=
  tokensFrom_bare rest (by decide)

theorem tokensFrom_double (rest : List Char) :
    tokensFrom .bare word ('"' :: rest) = tokensFrom .double (some (word.getD [])) rest :=
  tokensFrom_bare rest (by decide)

theorem tokensFrom_and (rest : List Char) :
    tokensFrom .bare word ('&' :: '&' :: rest) =
      (tokensFrom .bare none rest).map fun tokens => finish word (.operator "&&".toList :: tokens) := rfl

theorem tokensFrom_blank (rest : List Char) :
    tokensFrom .bare word (' ' :: rest) = (tokensFrom .bare none rest).map (finish word) := by
  rw [tokensFrom_bare rest (by decide)]
  rfl

theorem isSafe_bare {c : Char} (h : isSafe c = true) :
    isOperator c = false ∧ isActive c = false ∧ c ≠ '\'' ∧ c ≠ '"' ∧ c ≠ ' ' ∧ c ≠ '\t' := by
  have hactive : ['&', '|', ';', '<', '>', '(', ')', '\n', '$', '\x60', '\\', '*', '?', '[', '~', '#',
      '\'', '"', ' ', '\t'].all (fun d => !isSafe d) = true := by decide
  have hno : ∀ d ∈ ['&', '|', ';', '<', '>', '(', ')', '\n', '$', '\x60', '\\', '*', '?', '[', '~', '#',
      '\'', '"', ' ', '\t'], c ≠ d := by
    rintro d hd rfl
    simpa [h] using List.all_eq_true.mp hactive c hd
  simp only [List.mem_cons, List.not_mem_nil, or_false, forall_eq_or_imp, forall_eq] at hno
  simp [isOperator, isActive, isExpanded, hno]

theorem tokensFrom_safe {c : Char} (rest : List Char) (h : isSafe c = true) :
    tokensFrom .bare word (c :: rest) = tokensFrom .bare (some (word.getD [] ++ [c])) rest := by
  obtain ⟨hop, hactive, h₁, h₂, h₃, h₄⟩ := isSafe_bare h
  rw [tokensFrom_bare rest hop]
  simp [bareChar, hop, hactive, h₁, h₂, h₃, h₄]

theorem tokensFrom_all_safe {s : List Char} (rest : List Char) (hne : s ≠ []) (h : s.all isSafe = true) :
    tokensFrom .bare word (s ++ rest) = tokensFrom .bare (some (word.getD [] ++ s)) rest := by
  induction s generalizing word with
  | nil => exact absurd rfl hne
  | cons c s ih =>
    obtain ⟨hc, hs⟩ := Bool.and_eq_true_iff.mp h
    rw [List.cons_append, tokensFrom_safe _ hc]
    cases s with
    | nil => rfl
    | cons d s =>
      rw [ih (List.cons_ne_nil d s) hs]
      simp

theorem tokensFrom_escape (s rest : List Char) (w : List Char) :
    tokensFrom .single (some w) (s.flatMap escape ++ '\'' :: rest) = tokensFrom .bare (some (w ++ s)) rest := by
  induction s generalizing w with
  | nil => simp [tokensFrom]
  | cons c s ih =>
    by_cases hc : c = '\''
    · subst hc
      have hescape : escape '\'' = ['\'', '"', '\'', '"', '\''] := by decide
      change tokensFrom .bare (some w) ('"' :: '\'' :: '"' :: '\'' :: (s.flatMap escape ++ '\'' :: rest)) = _
      rw [tokensFrom_double]
      change tokensFrom .bare (some (w ++ ['\''])) ('\'' :: (s.flatMap escape ++ '\'' :: rest)) = _
      rw [tokensFrom_single, Option.getD_some, ih, List.append_assoc, List.singleton_append]
    · have hescape : escape c = [c] := if_neg hc
      rw [List.flatMap_cons, hescape, List.singleton_append, List.cons_append]
      simp [tokensFrom, hc, ih]

theorem tokensFrom_quote (s rest : List Char) :
    tokensFrom .bare word (quote s ++ rest) = tokensFrom .bare (some (word.getD [] ++ s)) rest := by
  unfold quote
  split
  · rename_i hnil
    rw [List.isEmpty_iff.mp hnil, List.append_nil]
    exact tokensFrom_single ('\'' :: rest)
  · rename_i hne
    split
    · rename_i hsafe
      exact tokensFrom_all_safe rest (fun hnil => hne (List.isEmpty_iff.mpr hnil)) hsafe
    · rw [List.append_assoc, List.cons_append, tokensFrom_single, List.singleton_append, tokensFrom_escape]

theorem tokensFrom_word (s rest : List Char) :
    tokensFrom .bare none (quote s ++ ' ' :: rest) = (tokensFrom .bare none rest).map (.word s :: ·) := by
  rw [tokensFrom_quote, tokensFrom_blank]
  rfl

theorem tokensFrom_last (s : List Char) : tokensFrom .bare none (quote s) = some [.word s] := by
  have h : tokensFrom .bare none (quote s ++ []) = some [.word s] := tokensFrom_quote s []
  rw [List.append_nil] at h
  exact h

theorem tokensFrom_change (workdir rest : List Char) :
    tokensFrom .bare none (quote "cd".toList ++ ' ' :: (quote workdir ++ ' ' :: '&' :: '&' :: ' ' :: rest)) =
      (tokensFrom .bare none rest).map
        ([.word "cd".toList, .word workdir, .operator "&&".toList] ++ ·) := by
  rw [tokensFrom_word, tokensFrom_word, tokensFrom_and, tokensFrom_blank]
  simp only [Option.map_map]
  rfl

end Playpen.Shell

namespace Playpen.Settings

variable {τ : Type}

/-- Whatever the three values hold, a shell takes each one as a single word, and nothing else from them. -/
theorem default_commands_lexed (image : Value) (memoryLimit : Int) (maxExecutionTime controlTimeout : τ)
    (compiler source workdir : String)
    (h : ∀ v ∈ [compiler, source, workdir], ∀ t ∈ [compilerToken, sourceToken, workdirToken], ¬t <:+: v.toList) :
    let s : Settings τ := {
      image, memoryLimit, maxExecutionTime, controlTimeout
      compiler := .text compiler
      sourceFilename := .text source
      workingDir := .text workdir }
    (s.expand s.runCommand).toOption.bind Shell.tokens =
        some [.word "cd".toList, .word workdir.toList, .operator "&&".toList, .word compiler.toList,
          .word source.toList] ∧
      (s.expand s.generatedCodeCommand).toOption.bind Shell.tokens =
        some [.word "cd".toList, .word workdir.toList, .operator "&&".toList, .word compiler.toList,
          .word "-e".toList, .word source.toList] := by
  have hvalues : ∀ v ∈ [compiler, source, workdir], ∀ t ∈ tokens, ¬t <:+: v.toList := by
    intro v hv t ht
    apply h v hv t
    simp only [tokens, List.mem_cons, List.not_mem_nil, or_false] at ht ⊢
    tauto
  intro s
  have hrun : s.expand s.runCommand = .ok _ := expand_of_clean s hvalues (by decide)
  have hgenerated : s.expand s.generatedCodeCommand = .ok _ := expand_of_clean s hvalues (by decide)
  rw [hrun, hgenerated]
  constructor
  · change Shell.tokensFrom .bare none (Shell.quote "cd".toList ++ ' ' :: (Shell.quote workdir.toList ++
      ' ' :: '&' :: '&' :: ' ' :: (Shell.quote compiler.toList ++ ' ' :: (Shell.quote source.toList ++ [])))) = _
    rw [Shell.tokensFrom_change, Shell.tokensFrom_word, List.append_nil, Shell.tokensFrom_last]
    rfl
  · change Shell.tokensFrom .bare none (Shell.quote "cd".toList ++ ' ' :: (Shell.quote workdir.toList ++
      ' ' :: '&' :: '&' :: ' ' :: (Shell.quote compiler.toList ++ ' ' :: (Shell.quote "-e".toList ++
        ' ' :: (Shell.quote source.toList ++ []))))) = _
    rw [Shell.tokensFrom_change, Shell.tokensFrom_word, Shell.tokensFrom_word, List.append_nil,
      Shell.tokensFrom_last]
    rfl

theorem default_commands_lexed_quotes :
    (∀ v ∈ ["a'; rm -rf $HOME\n", "''", ""], ∀ t ∈ [compilerToken, sourceToken, workdirToken], ¬t <:+: v.toList) ∧
    let s : Settings Nat := {
      image := .text "yz-sandbox:test"
      memoryLimit := 67108864
      maxExecutionTime := 5
      controlTimeout := 30
      compiler := .text "a'; rm -rf $HOME\n"
      sourceFilename := .text "''"
      workingDir := .text "" }
    (s.expand s.runCommand).toOption.bind Shell.tokens =
        some [.word "cd".toList, .word [], .operator "&&".toList, .word "a'; rm -rf $HOME\n".toList,
          .word "''".toList] ∧
      (s.expand s.generatedCodeCommand).toOption.bind Shell.tokens =
        some [.word "cd".toList, .word [], .operator "&&".toList, .word "a'; rm -rf $HOME\n".toList,
          .word "-e".toList, .word "''".toList] := by
  have hvalues : ∀ v ∈ ["a'; rm -rf $HOME\n", "''", ""], ∀ t ∈ [compilerToken, sourceToken, workdirToken],
      ¬t <:+: v.toList := by decide +kernel
  exact ⟨hvalues, default_commands_lexed (.text "yz-sandbox:test") 67108864 5 30 _ _ _ hvalues⟩

end Playpen.Settings
