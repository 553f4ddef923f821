import EmbeddedSql.Proofs.Sql.Parsing
import Mathlib.Computability.Language

/-!
# Reading with one token of lookahead

A reader is predictive if it decides by the next token alone. Then what it read is a sentence of
its language, and where it gets stuck it has read what a sentence begins with; in both cases the
outcome depends on what is left only through the first token of it. Readers are put together from
predictive ones in sequence, by a choice, and as lists with separators, and the language is put
together alike. All readers of the parser are of this kind, apart from the count of the values in
a tuple.
-/

namespace EmbeddedSql.Sql.Parser

/-- A function that reads something from the front of a list of tokens. -/
abbrev Reader (α : Type) := List Token → Except Failure (α × List Token)

/-- How a reader deals with a list of tokens. -/
inductive Reads {α : Type} (p : Reader α) (L : Language Token) : List Token → Prop where
  /-- It reads a sentence, whatever stands behind the next token. -/
  | read (front : List Token) (a : α) {rest : List Token} (sentence : front ∈ L)
    (outcome : ∀ other, other.head? = rest.head? → p (front ++ other) = .ok (a, other)) :
    Reads p L (front ++ rest)
  /-- It is stuck behind the beginning of a sentence, whatever stands behind the next token. -/
  | stuck (front : List Token) (expected : Expectation) {rest more : List Token}
    (sentence : front ++ more ∈ L)
    (outcome : ∀ other, other.head? = rest.head? →
      p (front ++ other) = .error (failure expected other)) :
    Reads p L (front ++ rest)

/-- A reader is predictive if it deals with every list of tokens in this way. -/
def Predictive {α : Type} (p : Reader α) (L : Language Token) : Prop :=
  ∀ tokens, Reads p L tokens

/-- Behind the same tokens the next one is the same if it is in what follows. -/
theorem head?_append_congr {other rest : List Token} (h : other.head? = rest.head?)
    (front : List Token) : (front ++ other).head? = (front ++ rest).head? := by
  rw [List.head?_append, List.head?_append, h]

variable {α β : Type} {p : Reader α} {L M : Language Token}

/-- A token in front of a word of a language makes a word of the product. -/
theorem cons_mem_mul (token : Token) {w : List Token} (h : w ∈ L) : token :: w ∈ {[token]} * L :=
  Language.append_mem_mul (Set.mem_singleton [token]) h

/-! ## Where the next token decides -/

/-- A reader that fails at the end of the text, and has something to read, is stuck there. -/
theorem Reads.stuck_nil (expected : Expectation) {w : List Token}
    (h : p [] = .error (failure expected [])) (hw : w ∈ L) : Reads p L [] :=
  .stuck [] expected hw fun other ho => by
    obtain rfl : other = [] := List.head?_eq_none_iff.mp ho
    exact h

/-- A reader that fails at the first token, whatever is behind it, is stuck there if it has
something to read. -/
theorem Reads.stuck_cons (expected : Expectation) {found : Token} {rest w : List Token}
    (h : ∀ rest, p (found :: rest) = .error (failure expected (found :: rest))) (hw : w ∈ L) :
    Reads p L (found :: rest) :=
  .stuck [] expected hw fun other ho => by
    obtain ⟨more, rfl⟩ := List.head?_eq_some_iff.mp ho
    exact h more

/-- A reader that takes nothing at the end of the text reads the empty word. -/
theorem Reads.read_nil {a : α} (h : p [] = .ok (a, [])) (hL : [] ∈ L) : Reads p L [] :=
  .read [] a hL fun other ho => by
    obtain rfl : other = [] := List.head?_eq_none_iff.mp ho
    exact h

/-- A reader that takes nothing in front of a token, whatever is behind it, reads the empty
word. -/
theorem Reads.read_cons {a : α} {found : Token} {rest : List Token}
    (h : ∀ rest, p (found :: rest) = .ok (a, found :: rest)) (hL : [] ∈ L) :
    Reads p L (found :: rest) :=
  .read [] a hL fun other ho => by
    obtain ⟨more, rfl⟩ := List.head?_eq_some_iff.mp ho
    exact h more

/-! ## Putting readers together -/

/-- A reader that deals with a text deals with it in any larger language. -/
theorem Reads.mono {tokens : List Token} (h : Reads p L tokens) (hL : ∀ w ∈ L, w ∈ M) :
    Reads p M tokens := by
  cases h with
  | read front a sentence outcome => exact .read front a (hL _ sentence) outcome
  | stuck front expected sentence outcome => exact .stuck front expected (hL _ sentence) outcome

/-- A larger language does as well. -/
theorem Predictive.mono (h : Predictive p L) (hL : ∀ w ∈ L, w ∈ M) : Predictive p M :=
  fun tokens => (h tokens).mono hL

/-- There are sentences to be read. -/
theorem Reads.nonempty {tokens : List Token} (h : Reads p L tokens) : ∃ w, w ∈ L := by
  cases h with
  | read front a sentence => exact ⟨_, sentence⟩
  | stuck front expected sentence => exact ⟨_, sentence⟩

/-- A token in front of what another reader reads. -/
theorem Reads.cons {q : Reader α} {token : Token} {tokens : List Token}
    (hp : ∀ rest, p (token :: rest) = q rest) (hM : ∀ w ∈ L, token :: w ∈ M)
    (h : Reads q L tokens) : Reads p M (token :: tokens) := by
  cases h with
  | read front a sentence outcome =>
    exact .read (token :: front) a (hM _ sentence) fun other ho =>
      (hp _).trans (outcome other ho)
  | stuck front expected sentence outcome =>
    exact .stuck (token :: front) expected (hM _ sentence) fun other ho =>
      (hp _).trans (outcome other ho)

/-- Nothing is read. -/
theorem predictive_ok (a : α) : Predictive (fun tokens => .ok (a, tokens)) 1 :=
  fun _ => .read [] a Language.nil_mem_one fun _ _ => rfl

/-- One reader after the other. -/
theorem Reads.bind {q : α → Reader β} {tokens : List Token} (hp : Reads p L tokens)
    (hM : ∃ w, w ∈ M) (hq : ∀ a front rest, tokens = front ++ rest → Reads (q a) M rest) :
    Reads (fun tokens => do
      let (a, rest) ← p tokens
      q a rest) (L * M) tokens := by
  cases hp with
  | @stuck front expected rest more sentence outcome =>
    obtain ⟨w, hw⟩ := hM
    have hboth : front ++ (more ++ w) ∈ L * M := by
      rw [← List.append_assoc]
      exact Language.append_mem_mul sentence hw
    exact .stuck front expected hboth fun other ho => by rw [outcome other ho]; rfl
  | @read front a rest sentence outcome =>
    have hnext (other : List Token) (ho : other.head? = rest.head?) :
        (do
          let (a, rest) ← p (front ++ other)
          q a rest) = q a other := by
      rw [outcome other ho]
      rfl
    cases hq a front rest rfl with
    | @read second b rest sentence' outcome' =>
      rw [← List.append_assoc]
      refine .read (front ++ second) b (Language.append_mem_mul sentence sentence')
        fun other ho => ?_
      rw [List.append_assoc, hnext _ (head?_append_congr ho second), outcome' other ho]
    | @stuck second expected rest more sentence' outcome' =>
      rw [← List.append_assoc]
      have hboth : front ++ second ++ more ∈ L * M := by
        rw [List.append_assoc]
        exact Language.append_mem_mul sentence sentence'
      refine .stuck (front ++ second) expected hboth fun other ho => ?_
      rw [List.append_assoc, hnext _ (head?_append_congr ho second), outcome' other ho]

/-- Two predictive readers in sequence are predictive, and their language is the product. -/
theorem Predictive.bind [Nonempty α] {q : α → Reader β} (hp : Predictive p L)
    (hq : ∀ a, Predictive (q a) M) : Predictive (fun tokens => do
      let (a, rest) ← p tokens
      q a rest) (L * M) := by
  obtain ⟨a⟩ := ‹Nonempty α›
  exact fun tokens => (hp tokens).bind (hq a []).nonempty fun a _ rest _ => hq a rest

/-- What is read is handed on as something else. -/
theorem Reads.map {tokens : List Token} (h : Reads p L tokens) (f : α → β) :
    Reads (fun tokens => do
      let (a, rest) ← p tokens
      .ok (f a, rest)) L tokens := by
  have hboth := h.bind ⟨[], Language.nil_mem_one⟩ fun a _ rest _ => predictive_ok (f a) rest
  rwa [mul_one] at hboth

/-- Changing what a predictive reader gives back leaves it predictive, with the same language.
-/
theorem Predictive.map (h : Predictive p L) (f : α → β) : Predictive (fun tokens => do
      let (a, rest) ← p tokens
      .ok (f a, rest)) L :=
  fun tokens => (h tokens).map f

/-- One reader if the next token is a certain one, which it reads behind, and else another. -/
theorem Predictive.choice {yes no : Reader α} {token : Token} (hyes : Predictive yes L)
    (hno : Predictive no M) (hp : ∀ rest, p (token :: rest) = yes rest)
    (hp' : ∀ tokens, tokens.head? ≠ some token → p tokens = no tokens) :
    Predictive p ({[token]} * L + M) := by
  intro tokens
  by_cases ht : tokens.head? = some token
  · obtain ⟨rest, rfl⟩ := List.head?_eq_some_iff.mp ht
    exact (hyes rest).cons hp fun w hw => .inl (cons_mem_mul token hw)
  · cases hno tokens with
    | @read front a rest sentence outcome =>
      refine .read front a (.inr sentence) fun other ho => ?_
      rw [hp' _ (head?_append_congr ho front ▸ ht), outcome other ho]
    | @stuck front expected rest more sentence outcome =>
      refine .stuck front expected (.inr sentence) fun other ho => ?_
      rw [hp' _ (head?_append_congr ho front ▸ ht), outcome other ho]

/-! ## Single tokens -/

/-- Reads a token of some kind. -/
def one (expected : Expectation) (accept : Token → Option α) : Reader α
  | [] => .error (failure expected [])
  | found :: rest =>
    match accept found with
    | some a => .ok (a, rest)
    | none => .error (failure expected (found :: rest))

/-- The reader of one token is predictive if it accepts any, and its language is the tokens
that it accepts. -/
theorem predictive_one {expected : Expectation} {accept : Token → Option α} {token : Token} {a : α}
    (h : accept token = some a) : Predictive (one expected accept)
      {tokens | ∃ found a, accept found = some a ∧ [found] = tokens} := by
  have hw : [token] ∈ ({tokens | ∃ found a, accept found = some a ∧ [found] = tokens} :
      Language Token) := ⟨token, a, h, rfl⟩
  intro tokens
  cases tokens with
  | nil => exact .stuck_nil expected rfl hw
  | cons found rest =>
    cases hf : accept found with
    | some b =>
      refine .read [found] b ⟨found, b, hf, rfl⟩ fun other _ => ?_
      rw [List.singleton_append, one, hf]
    | none => exact .stuck_cons expected (fun rest => by rw [one, hf]) hw

/-- A certain token, and then what another reader reads. -/
theorem Predictive.token {k : Reader α} {wanted : Token} {expected : Expectation}
    (hk : Predictive k L) : Predictive (fun tokens => do
      let rest ← Parser.token wanted expected tokens
      k rest) ({[wanted]} * L) := by
  obtain ⟨w, hw⟩ := (hk []).nonempty
  intro tokens
  cases tokens with
  | nil => exact .stuck_nil expected rfl (cons_mem_mul wanted hw)
  | cons found rest =>
    by_cases hf : found = wanted
    · subst hf
      refine (hk rest).cons (fun more => ?_) fun v hv => cons_mem_mul found hv
      rw [token_self]
      rfl
    · refine .stuck_cons expected (fun rest => ?_) (cons_mem_mul wanted hw)
      rw [Parser.token, if_neg hf]
      rfl

/-! ## Lists -/

/-- Reads on behind an entry of a list: a separator says how what is read behind it is put
together with the entry, and without one the list ends. -/
def goOn (p : Reader β) (single : α → β) (join : Token → Option (α → β → β)) (a : α) : Reader β
  | [] => .ok (single a, [])
  | found :: rest =>
    match join found with
    | some f => do
      let (b, rest) ← p rest
      .ok (f a b, rest)
    | none => .ok (single a, found :: rest)

/-- What is behind an entry: nothing, or a separator and another list. -/
def behind (join : Token → Option (α → β → β)) (M : Language Token) : Language Token :=
  {tokens | tokens = [] ∨ ∃ token, (join token).isSome ∧ ∃ w ∈ M, token :: w = tokens}

/-- Going on behind an entry is predictive if the reader of what follows a separator is: the
next token says whether the list ends. -/
theorem reads_goOn {p : Reader β} {single : α → β} {join : Token → Option (α → β → β)} (a : α)
    {tokens : List Token} (hp : ∀ found rest, tokens = found :: rest → Reads p M rest) :
    Reads (goOn p single join a) (behind join M) tokens := by
  cases tokens with
  | nil => exact .read_nil rfl (.inl rfl)
  | cons found rest =>
    cases hj : join found with
    | none => exact .read_cons (fun rest => by rw [goOn, hj]) (.inl rfl)
    | some f =>
      refine ((hp found rest rfl).map (f a)).cons (fun more => ?_) fun w hw => .inr ?_
      · rw [goOn, hj]
      · exact ⟨found, by rw [hj]; rfl, w, hw, rfl⟩

/-- A list of one or more entries with separators between them. -/
theorem Predictive.list {item : Reader α} {p : Reader β} {single : α → β}
    {join : Token → Option (α → β → β)} (hitem : Predictive item L)
    (hp : ∀ tokens, p tokens = do
      let (a, rest) ← item tokens
      goOn p single join a rest)
    (hsingle : ∀ w ∈ L, w ∈ M)
    (hjoin : ∀ w ∈ L, ∀ token, (join token).isSome → ∀ v ∈ M, w ++ token :: v ∈ M) :
    Predictive p M := by
  intro tokens
  induction hn : tokens.length using Nat.strong_induction_on generalizing tokens with
  | h n ih =>
    -- A separator stands between an entry and the list behind it, so that list is shorter.
    have hbehind (a : α) (front rest : List Token) (hr : tokens = front ++ rest) :
        Reads (goOn p single join a) (behind join M) rest := by
      refine reads_goOn a fun found more hm => ih more.length ?_ more rfl
      rw [← hn, hr, hm, List.length_append, List.length_cons]
      omega
    have hlist := (hitem tokens).bind ⟨[], .inl rfl⟩ hbehind
    rw [← funext hp] at hlist
    refine hlist.mono ?_
    rintro _ ⟨w, hw, _, rfl | ⟨token, ht, v, hv, rfl⟩, rfl⟩
    · simpa using hsingle w hw
    · exact hjoin w hw token ht v hv

end EmbeddedSql.Sql.Parser
