import Mathlib.Data.List.Basic
import Winnow.Json.Printer
import Winnow.Json.Reader

/-!
# Reading the text of a value

The printed text of a value is a row of tokens, and each takes the reader one step: it goes from
waiting for a value to having it, whatever containers are open around it. Numbers are left out, and
containers may be nested as deep as the reader allows.
-/

namespace Winnow.Json

namespace Token

theorem hexDigit?_hexDigit (n : Nat) : hexDigit? (hexDigit n) = some (n % 16) := by
  have digits : ∀ d < 16, hexDigit? (Nat.digitChar d) = some d := by decide
  exact digits _ (Nat.mod_lt n (by decide))

theorem hexUnit?_hexDigit {n : Nat} (control : n < 0x20) :
    hexUnit? '0' '0' (hexDigit (n / 16)) (hexDigit n) = some n := by
  have zero : hexDigit? '0' = some 0 := rfl
  simp only [hexUnit?, zero, hexDigit?_hexDigit, Option.bind_eq_bind, Option.bind_some,
    Option.pure_def, Option.some.injEq]
  omega

theorem unitChar?_control {c : Char} (control : c.toNat < 0x20) : unitChar? c.toNat = some c := by
  rw [unitChar?, if_neg (by omega), Char.ofNat_toNat]

theorem stringBody?_visible {c : Char} (visible : ¬c.toNat < 0x20) (quote : c ≠ '"')
    (backslash : c ≠ '\\') (rest : List Char) :
    stringBody? (c :: rest) = (stringBody? rest).map fun (body, rest) => (c :: body, rest) := by
  have plain : ¬(c.toNat < 0x20 ∨ c = '\\') := not_or.mpr ⟨visible, backslash⟩
  rw [stringBody?.eq_def]
  split
  case h_4 same =>
    obtain ⟨rfl, rfl⟩ := List.cons.inj same
    exact if_neg plain
  all_goals simp_all

theorem stringBody?_simpleEscape {mark c : Char} (marked : simpleEscape? mark = some c)
    (rest : List Char) :
    stringBody? ('\\' :: mark :: rest) =
      (stringBody? rest).map fun (body, rest) => (c :: body, rest) := by
  have unit : mark ≠ 'u' := by
    rintro rfl
    cases marked
  have read : stringBody? ('\\' :: mark :: rest) =
      (stringBody? rest).bind fun (body, rest) => some (c :: body, rest) := by
    rw [stringBody?.eq_def]
    simp [unit, marked]
  exact read.trans Option.map_eq_bind.symm

theorem stringBody?_escape (c : Char) (rest : List Char) :
    stringBody? (escape c ++ rest) =
      (stringBody? rest).map fun (body, rest) => (c :: body, rest) := by
  unfold escape
  split
  case h_8 quote backslash _ _ _ _ _ =>
    split
    · next control =>
      simp only [List.cons_append, List.nil_append, stringBody?, hexUnit?_hexDigit control,
        unitChar?_control control]
    · next visible => exact stringBody?_visible visible quote backslash rest
  all_goals exact stringBody?_simpleEscape rfl rest

theorem stringBody?_quoted (cs rest : List Char) :
    stringBody? (cs.flatMap escape ++ '"' :: rest) = some (cs, rest) := by
  induction cs with
  | nil => rfl
  | cons c cs ih =>
      rw [List.flatMap_cons, List.append_assoc, stringBody?_escape, ih]
      rfl

theorem first?_quoted (s : String) (rest : List Char) :
    first? (quoted s ++ rest) = some (.string s, rest) := by
  have body := stringBody?_quoted s.toList rest
  rw [quoted, List.cons_append, List.append_assoc, List.singleton_append, first?, body]
  simp

/-- The characters of a token that is no number, whatever comes after them. -/
structure Spells (token : Token) (cs : List Char) : Prop where
  starts : ∃ c rest, cs = c :: rest ∧ ¬isSpace c
  first?_append : ∀ rest, first? (cs ++ rest) = some (token, rest)

/-- The characters of several tokens, one after another. -/
inductive SpellsAll : List Token → List Char → Prop
  | nil : SpellsAll [] []
  | cons {token : Token} {tokens : List Token} {cs ds : List Char} (first : token.Spells cs)
      (others : SpellsAll tokens ds) : SpellsAll (token :: tokens) (cs ++ ds)

theorem Spells.all {token : Token} {cs : List Char} (spells : token.Spells cs) :
    SpellsAll [token] cs := by
  simpa using SpellsAll.cons spells .nil

theorem SpellsAll.append {tokens others : List Token} {cs ds : List Char}
    (first : SpellsAll tokens cs) (second : SpellsAll others ds) :
    SpellsAll (tokens ++ others) (cs ++ ds) := by
  induction first with
  | nil => exact second
  | cons first others ih =>
      rw [List.append_assoc]
      exact .cons first ih

theorem SpellsAll.length_le {tokens : List Token} {cs : List Char} (spells : SpellsAll tokens cs) :
    tokens.length ≤ cs.length := by
  induction spells with
  | nil => exact Nat.le_refl 0
  | cons first others ih =>
      obtain ⟨c, rest, rfl, -⟩ := first.starts
      simp only [List.length_cons, List.length_append]
      omega

theorem SpellsAll.cut_eq {tokens : List Token} {cs : List Char} (spells : SpellsAll tokens cs)
    {fuel : Nat} (enough : tokens.length ≤ fuel) : cut fuel cs = some tokens := by
  induction spells generalizing fuel with
  | nil => cases fuel <;> rfl
  | @cons token tokens cs ds first others ih =>
      cases fuel with
      | zero => cases enough
      | succ fuel =>
          have cutOthers := ih (Nat.le_of_succ_le_succ enough)
          have read := first.first?_append ds
          obtain ⟨c, rest, rfl, visible⟩ := first.starts
          -- A token starts with no blank, so that nothing is dropped before it.
          have kept : (c :: rest ++ ds).dropWhile isSpace = c :: rest ++ ds := by
            simp [visible]
          rw [List.cons_append] at read kept
          simp [cut, kept, read, cutOthers]

theorem SpellsAll.all?_eq {tokens : List Token} {cs : List Char} (spells : SpellsAll tokens cs) :
    all? cs = some tokens :=
  spells.cut_eq spells.length_le

end Token

theorem itemChars_eq (items : List Json) :
    itemChars items = [','].intercalate (items.map chars) := by
  induction items with
  | nil => rfl
  | cons item rest ih =>
      cases rest with
      | nil => simp [itemChars]
      | cons next rest =>
          have step : itemChars (item :: next :: rest) =
              chars item ++ ',' :: itemChars (next :: rest) := by
            rw [itemChars]
            exact List.cons_ne_nil next rest
          rw [step, ih]
          simp [List.intercalate_cons_cons]

def memberText (member : String × Json) : List Char :=
  quoted member.1 ++ ':' :: member.2.chars

theorem memberChars_eq (members : Mapping) :
    memberChars members = [','].intercalate (members.map memberText) := by
  induction members with
  | nil => rfl
  | cons member rest ih =>
      cases rest with
      | nil => simp [memberChars, memberText]
      | cons next rest =>
          have step : memberChars (member :: next :: rest) =
              memberText member ++ ',' :: memberChars (next :: rest) := by
            rw [memberChars, memberText]
            exact List.cons_ne_nil next rest
          rw [step, ih]
          simp [List.intercalate_cons_cons]

namespace Reader

/-- Reading the characters takes a reader from one state to another. -/
def Passes (cs : List Char) (reader later : Reader) : Prop :=
  ∃ tokens, Token.SpellsAll tokens cs ∧ tokens.foldlM step reader = some later

variable {cs ds : List Char} {reader between later : Reader} {stack : List Frame}

theorem Passes.trans (first : Passes cs reader between) (second : Passes ds between later) :
    Passes (cs ++ ds) reader later := by
  obtain ⟨tokens, spells, passed⟩ := first
  obtain ⟨others, spellsOthers, passedOthers⟩ := second
  refine ⟨tokens ++ others, spells.append spellsOthers, ?_⟩
  rw [List.foldlM_append, passed]
  exact passedOthers

theorem passes_token {token : Token} (spells : token.Spells cs)
    (stepped : step reader token = some later) : Passes cs reader later := by
  refine ⟨[token], spells.all, ?_⟩
  rw [List.foldlM_cons, stepped]
  rfl

theorem passes_mark {c : Char} {token : Token}
    (mark : ∀ rest, Token.first? (c :: rest) = some (token, rest)) (visible : ¬Token.isSpace c)
    (stepped : step reader token = some later) : Passes [c] reader later :=
  passes_token ⟨⟨c, [], rfl, visible⟩, mark⟩ stepped

theorem passes_quoted {s : String} (stepped : step reader (.string s) = some later) :
    Passes (quoted s) reader later :=
  passes_token ⟨⟨'"', _, rfl, by decide⟩, Token.first?_quoted s⟩ stepped

/-- A reader that can do what another one does goes wherever that one goes. -/
theorem Passes.of_step {other : Reader} (passes : Passes cs reader later) (nonempty : cs ≠ [])
    (steps : ∀ token later, step reader token = some later → step other token = some later) :
    Passes cs other later := by
  obtain ⟨tokens, spells, passed⟩ := passes
  refine ⟨tokens, spells, ?_⟩
  cases spells with
  | nil => exact absurd rfl nonempty
  | cons first others =>
      rw [List.foldlM_cons, Option.bind_eq_bind, Option.bind_eq_some_iff] at passed ⊢
      obtain ⟨next, stepped, passed⟩ := passed
      exact ⟨next, steps _ _ stepped, passed⟩

theorem step_arrayOpened (token : Token) (later : Reader)
    (stepped : step ⟨.array [] :: stack, .value⟩ token = some later) :
    step ⟨stack, .arrayOpened⟩ token = some later := by
  cases token with
  | arrayClose => cases stepped
  | _ => exact stepped

theorem step_objectOpened (token : Token) (later : Reader)
    (stepped : step ⟨stack, .key []⟩ token = some later) :
    step ⟨stack, .objectOpened⟩ token = some later := by
  cases token with
  | string key => exact stepped
  | _ => cases stepped

/-- What a reader does between the marks of a container: with each part it goes from waiting for one
to holding one more, and with a comma back to waiting. -/
theorem passes_separated {α : Type} {written : α → List Char} {close : Char}
    {waiting holding closed : List α → Reader} {parts : List α}
    (each : ∀ part ∈ parts, ∀ done,
      Passes (written part) (waiting done) (holding (part :: done)))
    (comma : ∀ done, Passes [','] (holding done) (waiting done))
    (closing : ∀ done, Passes [close] (holding done) (closed done)) (nonempty : parts ≠ [])
    (done : List α) :
    Passes ([','].intercalate (parts.map written) ++ [close]) (waiting done)
      (closed (parts.reverse ++ done)) := by
  induction parts generalizing done with
  | nil => exact absurd rfl nonempty
  | cons part rest ih =>
      obtain ⟨here, later⟩ := List.forall_mem_cons.mp each
      have first := here done
      cases rest with
      | nil =>
          rw [List.map_singleton, List.intercalate_singleton]
          exact first.trans (closing (part :: done))
      | cons next rest =>
          have others := ih later (List.cons_ne_nil _ _) (part :: done)
          rw [List.map_cons, List.map_cons, List.intercalate_cons_cons, ← List.map_cons,
            List.append_assoc, List.append_assoc, List.reverse_cons, List.append_assoc,
            List.singleton_append]
          exact first.trans ((comma _).trans others)

theorem passes_array {items : List Json} (room : stack.length < maxDepth)
    (reads : ∀ item ∈ items, ∀ done,
      Passes item.chars ⟨.array done :: stack, .value⟩ ⟨stack, .afterItem (item :: done)⟩) :
    Passes (chars (.array items)) ⟨stack, .value⟩ (deliver (.array items) stack) := by
  have opened : Passes ['['] ⟨stack, .value⟩ ⟨stack, .arrayOpened⟩ :=
    passes_mark (fun _ => rfl) (by decide) (if_pos room)
  rw [chars]
  refine opened.trans ?_
  cases items with
  | nil => exact passes_mark (fun _ => rfl) (by decide) rfl
  | cons item rest =>
      have comma (done : List Json) :
          Passes [','] ⟨stack, .afterItem done⟩ ⟨.array done :: stack, .value⟩ :=
        passes_mark (fun _ => rfl) (by decide) rfl
      have close (done : List Json) :
          Passes [']'] ⟨stack, .afterItem done⟩ (deliver (.array done.reverse) stack) :=
        passes_mark (fun _ => rfl) (by decide) rfl
      have inside := passes_separated reads comma close (List.cons_ne_nil item rest) []
      rw [List.append_nil, List.reverse_reverse] at inside
      rw [itemChars_eq]
      exact inside.of_step (by simp) step_arrayOpened

theorem passes_object {members : Mapping} (room : stack.length < maxDepth)
    (reads : ∀ member ∈ members, ∀ done,
      Passes member.2.chars ⟨.object done member.1 :: stack, .value⟩
        ⟨stack, .afterMember (member :: done)⟩) :
    Passes (chars (.object members)) ⟨stack, .value⟩ (deliver (.object members) stack) := by
  have opened : Passes ['\x7b'] ⟨stack, .value⟩ ⟨stack, .objectOpened⟩ :=
    passes_mark (fun _ => rfl) (by decide) (if_pos room)
  rw [chars]
  refine opened.trans ?_
  cases members with
  | nil => exact passes_mark (fun _ => rfl) (by decide) rfl
  | cons member rest =>
      have colon (done : Mapping) (key : String) :
          Passes [':'] ⟨stack, .afterKey done key⟩ ⟨.object done key :: stack, .value⟩ :=
        passes_mark (fun _ => rfl) (by decide) rfl
      have each (member : String × Json) (inside : member ∈ _ :: rest) (done : Mapping) :
          Passes (memberText member) ⟨stack, .key done⟩ ⟨stack, .afterMember (member :: done)⟩ :=
        (passes_quoted rfl).trans ((colon done member.1).trans (reads member inside done))
      have comma (done : Mapping) : Passes [','] ⟨stack, .afterMember done⟩ ⟨stack, .key done⟩ :=
        passes_mark (fun _ => rfl) (by decide) rfl
      have close (done : Mapping) :
          Passes ['\x7d'] ⟨stack, .afterMember done⟩ (deliver (.object done.reverse) stack) :=
        passes_mark (fun _ => rfl) (by decide) rfl
      have inside := passes_separated each comma close (List.cons_ne_nil member rest) []
      rw [List.append_nil, List.reverse_reverse] at inside
      rw [memberChars_eq]
      exact inside.of_step (by simp) step_objectOpened

end Reader

/-- There are no numbers in the value, and at most so many containers around any part of it. -/
def Plain : Nat → Json → Prop
  | _, .null | _, .bool _ | _, .string _ => True
  | _, .number _ => False
  | 0, .array _ | 0, .object _ => False
  | depth + 1, .array items => ∀ item ∈ items, Plain depth item
  | depth + 1, .object members => ∀ member ∈ members, Plain depth member.2

/-- The text of a value is read as the value, within whatever is read around it. -/
theorem Reader.passes_chars {stack : List Frame} {depth : Nat} {json : Json}
    (plain : json.Plain depth) (room : stack.length + depth ≤ maxDepth) :
    Passes json.chars ⟨stack, .value⟩ (deliver json stack) := by
  -- One container further in, the stack has one frame more and the depth is one less.
  fun_induction Plain depth json generalizing stack with
  | case1 => exact passes_token ⟨⟨'n', _, rfl, by decide⟩, fun _ => rfl⟩ rfl
  | case2 depth b =>
      cases b <;> exact passes_token ⟨⟨_, _, rfl, by decide⟩, fun _ => rfl⟩ rfl
  | case3 => exact passes_quoted rfl
  | case4 | case5 | case6 => exact plain.elim
  | case7 depth items ih =>
      refine passes_array (by omega) fun item member done => ?_
      exact ih item (plain item member) (by simp only [List.length_cons]; omega)
  | case8 depth members ih =>
      refine passes_object (by omega) fun member inside done => ?_
      exact ih member (plain member inside) (by simp only [List.length_cons]; omega)

theorem decode?_text {json : Json} (plain : json.Plain Reader.maxDepth) :
    decode? json.text = some json := by
  have passes : Reader.Passes json.chars Reader.start (Reader.deliver json []) :=
    Reader.passes_chars plain (by simp)
  obtain ⟨tokens, spells, passed⟩ := passes
  rw [decode?, text, String.toList_ofList, spells.all?_eq]
  simp only [Option.bind_eq_bind, Option.bind_some, passed]
  rfl

end Winnow.Json
