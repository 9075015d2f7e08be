import Linkage.Proofs.Call.Numbered
import Linkage.Proofs.Text.Ascending
import Linkage.Proofs.Text.Trimming

/-!
The source of a forwarding class, read back. A name ends at the parenthesis behind it and a text at
the first quotation mark without a backslash, so a source can be read in one way only: as a class
with one method for every binding of its owner, each with the call that it hands on.
-/
namespace Linkage.Call.ForwardingClass

/-- A name as a source has it: letters, digits and underscores, no digit of ASCII in front. -/
structure IsIdentifier (s : String) : Prop where
  written : s ≠ ""
  plain : ∀ c ∈ s.toList, Text.isWordChar c = true ∨ c = '_'
  start : ∀ c ∈ s.toList.head?, c.isDigit = false

/-- A method of a forwarding class, and the call that it hands on. -/
structure Method where
  name : String
  owner : String
  binding : String
  deriving DecidableEq

def Method.text (m : Method) : String := methodText m.owner m.binding m.name

/-- What stands before the methods of a class. -/
def opening (package className : String) : String :=
  "package " ++ package ++ ";\n\npublic final class " ++ className ++ " \x7b\n    private " ++
    className ++ "() \x7b\n    \x7d\n"

theorem sourceText_eq (package className owner : String) (bindings : List String) :
    sourceText package className owner bindings = opening package className ++
      String.join (List.zipWith (methodText owner) bindings (methodNames bindings)) ++ "\x7d\n" :=
  rfl

/-- The source of a class consists of these methods. -/
structure Declares (package : String) (c : ForwardingClass) (ms : List Method) : Prop where
  source : c.source = opening package c.className ++ String.join (ms.map Method.text) ++ "\x7d\n"
  named : ∀ m ∈ ms, IsIdentifier m.name

section Names

theorem isWordChar_of_ascii {c : Char} (small : c.toNat < 128) :
    Text.isWordChar c = c.isAlphanum :=
  if_pos small

theorem isWordChar_of_isDigit {c : Char} (digit : c.isDigit = true) : Text.isWordChar c = true := by
  have small : c.toNat < 128 := by
    simp only [Char.isDigit, Bool.and_eq_true, decide_eq_true_eq, ge_iff_le,
      UInt32.le_iff_toNat_le] at digit
    change 48 ≤ c.toNat ∧ c.toNat ≤ 57 at digit
    omega
  rw [isWordChar_of_ascii small, Char.isAlphanum, digit, Bool.or_true]

theorem isIdentifier_identifier (raw : String) : IsIdentifier (identifier raw) := by
  have plain : ∀ d ∈ raw.toList.map fun c => if Text.isWordChar c || c == '_' then c else '_',
      Text.isWordChar d = true ∨ d = '_' := by
    intro d among
    obtain ⟨c, _, rfl⟩ := List.mem_map.mp among
    by_cases kept : (Text.isWordChar c || c == '_') = true
    · rw [if_pos kept]
      simpa using kept
    · rw [if_neg kept]
      exact .inr rfl
  unfold identifier
  simp only
  split
  next =>
    have chars : "value".toList = ['v', 'a', 'l', 'u', 'e'] := by decide
    refine ⟨by decide, fun c inside => .inl ?_, by simp [chars]⟩
    have letters : "value".toList.all (fun c => c.toNat < 128 && c.isAlphanum) = true := by decide
    have letter := List.all_eq_true.mp letters c inside
    rw [Bool.and_eq_true, decide_eq_true_iff] at letter
    rw [isWordChar_of_ascii letter.1, letter.2]
  next c rest cut =>
    rw [cut] at plain
    by_cases digit : c.isDigit = true
    · rw [if_pos digit]
      refine ⟨by simp, ?_, by simp⟩
      rw [String.toList_ofList, List.forall_mem_cons]
      exact ⟨.inr rfl, plain⟩
    · rw [if_neg digit]
      refine ⟨by simp, by rwa [String.toList_ofList], ?_⟩
      simpa using digit

theorem isIdentifier_occurrence {name : String} (isName : IsIdentifier name) (n : Nat) :
    IsIdentifier (occurrence "_" name n) := by
  unfold occurrence
  split
  · exact isName
  · obtain ⟨c, cs, chars⟩ :=
      List.exists_cons_of_ne_nil (mt String.toList_eq_nil_iff.mp isName.written)
    refine ⟨by simp [isName.written], ?_, ?_⟩
    · intro d inside
      simp only [String.toList_append, List.mem_append] at inside
      rcases inside with (given | mark) | digit
      · exact isName.plain d given
      · exact .inr (by simpa using mark)
      · exact .inl (isWordChar_of_isDigit (Text.isDigit_of_mem_toString digit))
    · have start := isName.start
      simpa only [String.toList_append, chars, List.cons_append, List.head?_cons] using start

theorem isIdentifier_of_mem_methodNames {bindings : List String} {name : String}
    (among : name ∈ methodNames bindings) : IsIdentifier name := by
  rw [methodNames, numbered_eq_map] at among
  obtain ⟨⟨base, n⟩, tally, rfl⟩ := List.mem_map.mp among
  have given : base ∈ bindings.map identifier := by
    rw [mem_tallied, List.count_nil] at tally
    exact List.count_pos_iff.mp (by omega)
  obtain ⟨binding, _, rfl⟩ := List.mem_map.mp given
  exact isIdentifier_occurrence (isIdentifier_identifier binding) n

end Names

section Reading

/-- Reads a quoted text whose opening mark is gone: the text, and what follows its closing mark. -/
def unquote : List Char → Option (List Char × List Char)
  | [] => none
  | [c] => if c = '"' then some ([], []) else none
  | c :: d :: rest =>
    if c = '"' then some ([], d :: rest)
    else if c = '\\' then (unquote rest).map fun (text, after) => (d :: text, after)
    else (unquote (d :: rest)).map fun (text, after) => (c :: text, after)

theorem unquote_quote (rest : List Char) : unquote ('"' :: rest) = some ([], rest) := by
  cases rest with
  | nil => rfl
  | cons d rest => rfl

theorem unquote_plain {c : Char} (noMark : c ≠ '"') (plain : c ≠ '\\') (rest : List Char) :
    unquote (c :: rest) = (unquote rest).map fun (text, after) => (c :: text, after) := by
  cases rest with
  | nil => simp [unquote, noMark]
  | cons d rest => rw [unquote, if_neg noMark, if_neg plain]

theorem unquote_escaped (cs rest : List Char) :
    unquote ((cs.flatMap fun c => if c = '\\' ∨ c = '"' then ['\\', c] else [c]) ++ '"' :: rest) =
      some (cs, rest) := by
  induction cs with
  | nil => exact unquote_quote rest
  | cons c cs ih =>
    rw [List.flatMap_cons]
    by_cases escaped : c = '\\' ∨ c = '"'
    · rw [if_pos escaped, List.cons_append, List.singleton_append, List.cons_append,
        List.cons_append, unquote, if_neg (by decide), if_pos rfl, ih, Option.map_some]
    · obtain ⟨plain, noMark⟩ := not_or.mp escaped
      rw [if_neg escaped, List.singleton_append, List.cons_append, unquote_plain noMark plain, ih,
        Option.map_some]

/-- A quoted text ends where it can be seen. -/
theorem quoted_append_inj {s t rest after : String} (same : quoted s ++ rest = quoted t ++ after) :
    s = t ∧ rest = after := by
  have read (s rest : String) :
      unquote ((quoted s ++ rest).toList.drop 1) = some (s.toList, rest.toList) := by
    simpa [quoted] using unquote_escaped s.toList rest.toList
  have pairs := congrArg (fun text => unquote (text.toList.drop 1)) same
  simpa only [read, Option.some.injEq, Prod.mk.injEq, String.toList_inj] using pairs

/-- A name ends at a parenthesis. -/
theorem IsIdentifier.append_inj {s t lead rest after : String} (left : IsIdentifier s)
    (right : IsIdentifier t) (cut : lead.toList.head? = some '(')
    (same : s ++ (lead ++ rest) = t ++ (lead ++ after)) : s = t ∧ rest = after := by
  have uncut {s : String} (isName : IsIdentifier s) : ∀ c ∈ s.toList, (c != '(') = true := by
    intro c inside
    rw [bne_iff_ne]
    rintro rfl
    exact absurd (isName.plain _ inside) (by decide)
  have ends (rest : String) : ∀ c ∈ (lead ++ rest).toList.head?, (c != '(') = false := by
    obtain ⟨more, chars⟩ := List.head?_eq_some_iff.mp cut
    simp [chars]
  have chars : s.toList ++ (lead ++ rest).toList = t.toList ++ (lead ++ after).toList := by
    rw [← String.toList_append, same, String.toList_append]
  obtain ⟨names, tails⟩ :=
    Text.run_append_inj (uncut left) (uncut right) (ends rest) (ends after) chars
  exact ⟨String.toList_inj.mp names, (String.append_right_inj lead).mp (String.toList_inj.mp tails)⟩

/-- What follows the name of a method up to the texts that it hands on. -/
def handing : String :=
  "(final Object... args) \x7b\n        return " ++ dispatcher ++ "("

theorem Method.text_append (m : Method) (rest : String) :
    m.text ++ rest = "\n    public static Object " ++ (m.name ++ (handing ++ (quoted m.owner ++
      (", " ++ (quoted m.binding ++ (", args);\n    \x7d\n" ++ rest)))))) := by
  unfold Method.text methodText handing
  -- The name of the dispatcher is kept closed: it would be computed with the texts around it.
  generalize dispatcher = hidden
  simp only [String.append_assoc]

/-- A method ends where it can be seen, and its text tells all of it. -/
theorem Method.text_append_inj {m k : Method} {rest after : String} (left : IsIdentifier m.name)
    (right : IsIdentifier k.name) (same : m.text ++ rest = k.text ++ after) :
    m = k ∧ rest = after := by
  rw [m.text_append, k.text_append, String.append_right_inj] at same
  obtain ⟨name, same⟩ := left.append_inj right (by decide +kernel) same
  obtain ⟨owner, same⟩ := quoted_append_inj same
  rw [String.append_right_inj] at same
  obtain ⟨binding, same⟩ := quoted_append_inj same
  rw [String.append_right_inj] at same
  refine ⟨?_, same⟩
  cases m
  cases k
  simp_all

theorem join_text_inj {ms ks : List Method} (left : ∀ m ∈ ms, IsIdentifier m.name)
    (right : ∀ k ∈ ks, IsIdentifier k.name)
    (same : String.join (ms.map Method.text) ++ "\x7d\n" =
      String.join (ks.map Method.text) ++ "\x7d\n") : ms = ks := by
  -- The last line does not begin as a method does.
  have ends (k : Method) (rest : String) : "\x7d\n" ≠ k.text ++ rest := by
    intro whole
    have start := congrArg (·.toList.head?) whole
    rw [k.text_append] at start
    simp at start
  induction ms generalizing ks with
  | nil =>
    cases ks with
    | nil => rfl
    | cons k ks =>
      rw [List.map_nil, String.join_nil, String.empty_append, List.map_cons, String.join_cons,
        String.append_assoc] at same
      exact absurd same (ends k _)
  | cons m ms ih =>
    rw [List.map_cons, String.join_cons, String.append_assoc] at same
    cases ks with
    | nil =>
      rw [List.map_nil, String.join_nil, String.empty_append] at same
      exact absurd same.symm (ends m _)
    | cons k ks =>
      obtain ⟨first, others⟩ := List.forall_mem_cons.mp left
      obtain ⟨first', others'⟩ := List.forall_mem_cons.mp right
      rw [List.map_cons, String.join_cons, String.append_assoc] at same
      obtain ⟨rfl, rest⟩ := Method.text_append_inj first first' same
      rw [ih others others' rest]

theorem Declares.unique {package : String} {c : ForwardingClass} {ms ks : List Method}
    (one : c.Declares package ms) (other : c.Declares package ks) : ms = ks := by
  have same := one.source.symm.trans other.source
  rw [String.append_assoc, String.append_assoc, String.append_right_inj] at same
  exact join_text_inj one.named other.named same

end Reading

section Generate
variable {package : String} {targets : List Target} {c : ForwardingClass}

/-- The owner of a target and its binding are among the targets. -/
def Bound (targets : List Target) (owner binding : String) : Prop :=
  ∃ t ∈ targets, t.owner = owner ∧ t.binding = binding

theorem mem_bindingsOf {owner binding : String} :
    binding ∈ bindingsOf targets owner ↔ Bound targets owner binding := by
  simp only [bindingsOf, Text.mem_ascending, List.mem_map, List.mem_filter, beq_iff_eq, Bound,
    and_assoc]

theorem mem_ownersOf {owner : String} :
    owner ∈ ownersOf targets ↔ ∃ binding, Bound targets owner binding := by
  simp only [ownersOf, Text.mem_ascending, List.mem_map, Bound]
  constructor
  · rintro ⟨t, member, rfl⟩
    exact ⟨t.binding, t, member, rfl, rfl⟩
  · rintro ⟨_, t, member, rfl, _⟩
    exact ⟨t, member, rfl⟩

/-- The names of the classes, in the order of their owners. -/
def classNames (targets : List Target) : List String :=
  numbered "" [] ((ownersOf targets).map baseName)

theorem length_classNames : (classNames targets).length = (ownersOf targets).length := by
  rw [classNames, length_numbered, List.length_map]

/-- The class for an owner, under a name. -/
def classFor (package : String) (targets : List Target) (owner className : String) :
    ForwardingClass where
  owner := owner
  className := className
  path := pathOf package className
  source := sourceText package className owner (bindingsOf targets owner)

theorem generate_eq (package : String) (targets : List Target) : generate package targets =
    ((ownersOf targets).zip (classNames targets)).map fun x =>
      classFor package targets x.1 x.2 := by
  have unfolded : generate package targets =
      List.zipWith (classFor package targets) (ownersOf targets) (classNames targets) := rfl
  rw [unfolded, ← List.map_uncurry_zip_eq_zipWith]
  rfl

theorem map_owner_generate (package : String) (targets : List Target) :
    (generate package targets).map (·.owner) = ownersOf targets := by
  rw [generate_eq, List.map_map]
  exact List.map_fst_zip length_classNames.ge

theorem map_className_generate (package : String) (targets : List Target) :
    (generate package targets).map (·.className) = classNames targets := by
  rw [generate_eq, List.map_map]
  exact List.map_snd_zip length_classNames.le

theorem eq_classFor (among : c ∈ generate package targets) :
    c = classFor package targets c.owner c.className := by
  rw [generate_eq] at among
  obtain ⟨x, _, rfl⟩ := List.mem_map.mp among
  rfl

/-- What is generated depends on which bindings are called on which owners, and on nothing else. -/
theorem generate_congr {others : List Target}
    (same : ∀ owner binding, Bound targets owner binding ↔ Bound others owner binding) :
    generate package targets = generate package others := by
  have bindings (owner : String) : bindingsOf targets owner = bindingsOf others owner := by
    refine Text.ascending_congr fun binding => ?_
    have bound := same owner binding
    rwa [← mem_bindingsOf, ← mem_bindingsOf, bindingsOf, bindingsOf, Text.mem_ascending,
      Text.mem_ascending] at bound
  have owners : ownersOf targets = ownersOf others := by
    refine Text.ascending_congr fun owner => ?_
    have called := exists_congr (same owner)
    rwa [← mem_ownersOf, ← mem_ownersOf, ownersOf, ownersOf, Text.mem_ascending,
      Text.mem_ascending] at called
  simp only [generate, owners, bindings]

/-- The methods of the class for an owner. -/
def methodsFor (targets : List Target) (owner : String) : List Method :=
  ((bindingsOf targets owner).zip (methodNames (bindingsOf targets owner))).map
    fun x => ⟨x.2, owner, x.1⟩

theorem length_methodNames (bindings : List String) :
    (methodNames bindings).length = bindings.length := by
  rw [methodNames, length_numbered, List.length_map]

theorem map_binding_methodsFor (targets : List Target) (owner : String) :
    (methodsFor targets owner).map (·.binding) = bindingsOf targets owner := by
  rw [methodsFor, List.map_map]
  exact List.map_fst_zip (length_methodNames _).ge

theorem map_name_methodsFor (targets : List Target) (owner : String) :
    (methodsFor targets owner).map (·.name) = methodNames (bindingsOf targets owner) := by
  rw [methodsFor, List.map_map]
  exact List.map_snd_zip (length_methodNames _).le

theorem owner_of_mem_methodsFor {owner : String} {m : Method}
    (among : m ∈ methodsFor targets owner) : m.owner = owner := by
  obtain ⟨x, _, rfl⟩ := List.mem_map.mp among
  rfl

/-- The source of a class declares these methods, and can be read as no others. -/
theorem declares_iff (among : c ∈ generate package targets) {ms : List Method} :
    c.Declares package ms ↔ ms = methodsFor targets c.owner := by
  have declares : c.Declares package (methodsFor targets c.owner) := by
    refine ⟨?_, fun m among => ?_⟩
    · have texts : List.zipWith (methodText c.owner) (bindingsOf targets c.owner)
          (methodNames (bindingsOf targets c.owner)) =
          (methodsFor targets c.owner).map Method.text := by
        rw [methodsFor, List.map_map, ← List.map_uncurry_zip_eq_zipWith]
        rfl
      have written : c.source =
          sourceText package c.className c.owner (bindingsOf targets c.owner) :=
        congrArg ForwardingClass.source (eq_classFor among)
      rw [written, sourceText_eq, texts]
    · have named : m.name ∈ methodNames (bindingsOf targets c.owner) := by
        rw [← map_name_methodsFor]
        exact List.mem_map_of_mem among
      exact isIdentifier_of_mem_methodNames named
  exact ⟨fun other => other.unique declares, fun same => same ▸ declares⟩

end Generate

end Linkage.Call.ForwardingClass
