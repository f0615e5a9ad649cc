/-
What the literals of a generated model denote.

A generated class begins with the attributes that describe its table: their values are texts
from the database, as literals. Those of the indices are written as texts are shown, the
others as documents are, and there a character beyond the first plane is written by the
numbers of its two surrogates. Source text has no such pairs, so that the literal denotes the
two numbers and not the character. Every other character of every text is denoted as it is, by
both writers (`literals_renderModel`).
-/
import Schemata.Proofs.Model.Attributes
import Schemata.Proofs.Text.SourceLiteral

namespace Schemata.Model

open Text.Literal

/-! ## Values -/

theorem keeps_markupSafe {c : Char} (h : Json.markupSafe.keeps c = true) :
    32 ≤ c.toNat ∧ c.toNat < 0x10000 := by
  simp only [Json.markupSafe, Json.ascii, Bool.and_eq_true, decide_eq_true_eq] at h
  exact ⟨h.1.1, Nat.lt_trans h.1.2 (by decide)⟩

/-- A text as the writer of documents writes it. -/
theorem reads_markupSafe (s : String) : Reads true false (Json.markupSafe.text s) [units s] :=
  (writes_escape fun _ => keeps_markupSafe).reads (.inl rfl) s.toList

theorem reads_literal (s : String) : Reads true false (literal s).toList [units s] := by
  have written : (literal s).toList = Json.markupSafe.text s := by
    rw [literal, Json.print, String.toList_ofList, Json.chars]
  rw [written]
  exact reads_markupSafe s

theorem reads_quoted (s : String) : Reads true false (Text.quoted s).toList [points s] := by
  have quotes : Text.Quoted.delimiter s.toList = '"' ∨
      Text.Quoted.delimiter s.toList = '\'' := by
    unfold Text.Quoted.delimiter
    split
    · exact .inl rfl
    · exact .inr rfl
  have read := (writes_quoted quotes).reads quotes s.toList
  rw [← List.map_eq_flatMap] at read
  rw [Text.quoted, String.toList_ofList]
  exact read

/-- The items of a list, as the writer of documents writes them. -/
theorem chars_texts (a : Json.Alphabet) (s : String) (ss : List String) :
    a.text s ++ Json.itemsAfter Json.inline a 0 (ss.map .text) =
      [',', ' '].intercalate ((s :: ss).map a.text) ++ [']'] := by
  induction ss generalizing s with
  | nil =>
    rw [List.map_nil, Json.itemsAfter, List.map_singleton, List.intercalate_singleton]
    rfl
  | cons t ts ih =>
    rw [List.map_cons, Json.itemsAfter, Json.chars, List.append_assoc, ih t,
      List.map_cons (l := ts), List.map_cons, List.map_cons, List.intercalate_cons_cons]
    simp [Json.inline]

theorem reads_literalList (ss : List String) :
    Reads true false (literalList ss).toList (ss.map units) := by
  have written : (literalList ss).toList =
      ['['] ++ [',', ' '].intercalate (ss.map Json.markupSafe.text) ++ [']'] := by
    rw [literalList, Json.print, String.toList_ofList]
    cases ss with
    | nil => rfl
    | cons s ss =>
      rw [List.map_cons, Json.chars, Json.chars, List.append_assoc, chars_texts]
      rfl
  rw [written, List.map_eq_flatMap (f := units)]
  exact reads_list fun s _ => reads_markupSafe s

theorem reads_shownTexts (ss : List String) :
    Reads true false (shownTexts ss).toList (ss.map points) := by
  have written : (shownTexts ss).toList =
      ['['] ++ [',', ' '].intercalate (ss.map fun s => (Text.quoted s).toList) ++ [']'] := by
    rw [shownTexts, String.toList_append, String.toList_append, String.toList_intercalate,
      List.map_map]
    rfl
  rw [written, List.map_eq_flatMap (f := points)]
  exact reads_list fun s _ => reads_quoted s

theorem reads_indexText (i : IndexLine) :
    Reads true false i.text.toList ((i.name :: i.fields).map points) := by
  have opened : Reads true true ['('] [] := reads_marks rfl rfl
  have comma : Reads false true [',', ' '] [] := reads_marks rfl rfl
  have closed : Reads false false [')'] [] := reads_marks rfl rfl
  have unique : Reads false false [',', ' ', 'T', 'r', 'u', 'e', ')'] [] :=
    reads_marks rfl rfl
  have front := ((opened.append (reads_quoted i.name)).append comma).append
    (reads_shownTexts i.fields)
  have written : i.text.toList = ['('] ++ (Text.quoted i.name).toList ++ [',', ' '] ++
      (shownTexts i.fields).toList ++
        if i.unique then [',', ' ', 'T', 'r', 'u', 'e', ')'] else [')'] := by
    cases h : i.unique <;>
      simp [IndexLine.text, h]
  rw [written]
  split
  · simpa using front.append unique
  · simpa using front.append closed

/-! ## Attributes -/

/-- An attribute of a class that describes its table. -/
structure Attribute where
  name : String
  type : String
  value : String

/-- The text of an attribute in the body of the class. -/
def Attribute.text (a : Attribute) : String :=
  "    " ++ a.name ++ ": ClassVar[" ++ a.type ++ "] = " ++ a.value ++ "\n"

/-- Values on lines of their own, between brackets. -/
def block (opening closing : String) (values : List String) : String :=
  opening ++ "\n" ++ String.join (values.map fun v => "        " ++ v ++ ",\n") ++
    "    " ++ closing

/-- The attributes that describe a table. -/
def tableAttributes (m : Model) : List Attribute :=
  [⟨"__sql_table__", "str", literal m.source⟩] ++
    (match m.key with
     | some names => [⟨"__sql_primary_key__", "List[str]", literalList names⟩]
     | none => []) ++
    (match m.foreignKeyType with
     | some t => [⟨"__sql_foreign_key_type__", "str", literal t⟩]
     | none => []) ++
    (if m.foreignKeys.isEmpty then []
     else
      [⟨"__sql_foreign_keys__", "Dict[str, str]",
        block "\x7b" "\x7d"
          (m.foreignKeys.map fun k => literal k.1 ++ ": " ++ literal k.2)⟩]) ++
    (if m.indices.isEmpty then []
     else [⟨"__sql_indexes__", "List[tuple]", block "[" "]" (m.indices.map (·.text))⟩])

theorem join_singleton (s : String) : String.join [s] = s := by
  rw [String.join_cons, String.join_nil, String.append_empty]

/-- An attribute whose value is a block is on several lines. -/
theorem text_block (name type opening closing : String) (values : List String) :
    String.join ((["    " ++ name ++ ": ClassVar[" ++ type ++ "] = " ++ opening] ++
        values.map (fun v => "        " ++ v ++ ",") ++ ["    " ++ closing]).map
          (· ++ "\n")) =
      Attribute.text ⟨name, type, block opening closing values⟩ := by
  have ending : "," ++ "\n" = ",\n" := rfl
  simp only [Attribute.text, block, List.map_append, String.join_append, List.map_map,
    Function.comp_def, ending, List.map_cons, List.map_nil, String.join_cons, String.join_nil,
    String.append_empty, String.append_assoc]

/-- It is left out if there is nothing to say. -/
theorem join_block {first last : String} {lines : List String} (none : Bool)
    (name type opening closing : String) (values : List String)
    (opens : "    " ++ name ++ ": ClassVar[" ++ type ++ "] = " ++ opening = first)
    (closes : "    " ++ closing = last)
    (written : lines = values.map fun v => "        " ++ v ++ ",") :
    String.join ((if none then [] else [first] ++ lines ++ [last]).map (· ++ "\n")) =
      String.join
        ((if none then []
          else [⟨name, type, block opening closing values⟩]).map Attribute.text) := by
  subst opens closes written
  cases none with
  | true => rfl
  | false =>
    simp only [Bool.false_eq_true, if_false]
    rw [text_block, List.map_singleton, join_singleton]

/-- They are what stands in the lines of the class. -/
theorem join_tableLines (m : Model) :
    String.join (m.tableLines.map (· ++ "\n")) =
      String.join (m.tableAttributes.map Attribute.text) := by
  simp only [tableLines, tableAttributes, List.map_append (f := (· ++ "\n")),
    List.map_append (f := Attribute.text), String.join_append]
  refine congrArg₂ (· ++ ·) (congrArg₂ (· ++ ·) (congrArg₂ (· ++ ·) (congrArg₂ (· ++ ·)
    ?source ?key) ?type) ?foreignKeys) ?indices
  case source => rfl
  case key => cases m.key <;> rfl
  case type => cases m.foreignKeyType <;> rfl
  case foreignKeys =>
    refine join_block _ _ _ _ _ _ rfl rfl ?_
    simp only [List.map_map, Function.comp_def, String.append_assoc]
  case indices =>
    refine join_block _ _ _ _ _ _ rfl rfl ?_
    rw [List.map_map]
    rfl

theorem reads_block {α : Type} {opening closing : String} {xs : List α} {f : α → String}
    {g : α → List (List ℕ)} (opens : Reads true true opening.toList [])
    (closes : Reads true false closing.toList [])
    (h : ∀ x ∈ xs, Reads true false (f x).toList (g x)) :
    Reads true false (block opening closing (xs.map f)).toList (xs.flatMap g) := by
  have margin : Reads true true "        ".toList [] := reads_marks rfl rfl
  have comma : Reads false true ",\n".toList [] := reads_marks rfl rfl
  have break_ : Reads true true "\n".toList [] := reads_marks rfl rfl
  have last : Reads true true "    ".toList [] := reads_marks rfl rfl
  have lines : Reads true true
      (xs.flatMap fun x => "        ".toList ++ (f x).toList ++ ",\n".toList)
      (xs.flatMap g) :=
    .flatMap fun x hx => by simpa using (margin.append (h x hx)).append comma
  have written : (block opening closing (xs.map f)).toList =
      opening.toList ++ "\n".toList ++
        (xs.flatMap fun x => "        ".toList ++ (f x).toList ++ ",\n".toList) ++
          "    ".toList ++ closing.toList := by
    simp only [block, String.toList_append, String.toList_join, List.flatMap_map]
  rw [written]
  simpa using (((opens.append break_).append lines).append last).append closes

theorem reads_foreignKeys (ks : List (String × String)) :
    Reads true false
      (block "\x7b" "\x7d" (ks.map fun k => literal k.1 ++ ": " ++ literal k.2)).toList
      ((ks.flatMap fun k => [k.1, k.2]).map units) := by
  have colon : Reads false true ": ".toList [] := reads_marks rfl rfl
  have opens : Reads true true "\x7b".toList [] := reads_marks rfl rfl
  have closes : Reads true false "\x7d".toList [] := reads_marks rfl rfl
  rw [List.map_flatMap]
  refine reads_block opens closes fun k _ => ?_
  rw [String.toList_append, String.toList_append]
  exact ((reads_literal k.1).append colon).append (reads_literal k.2)

theorem reads_indices (is : List IndexLine) :
    Reads true false (block "[" "]" (is.map (·.text))).toList
      ((is.flatMap fun i => i.name :: i.fields).map points) := by
  have opens : Reads true true "[".toList [] := reads_marks rfl rfl
  have closes : Reads true false "]".toList [] := reads_marks rfl rfl
  rw [List.map_flatMap]
  exact reads_block opens closes fun i _ => reads_indexText i

/-! ## What is stated -/

/-- The attributes of a class that describe its table, by name, and the texts that each is to
state. -/
def statedTexts (s : Schema) (d : Declarations) : List (String × List String) :=
  [("__sql_table__", [s.source])] ++
    (match s.primaryKey with
     | some k => [("__sql_primary_key__", k.fieldNames)]
     | none => []) ++
    (if d.hasBinaryForeignKey then [("__sql_foreign_key_type__", ["binary_id"])] else []) ++
    (if s.foreignKeys.isEmpty then []
     else [("__sql_foreign_keys__", s.foreignKeys.flatMap fun k => [k.field, targetOf k])]) ++
    (if s.indices.isEmpty then []
     else [("__sql_indexes__", s.indices.flatMap fun i => i.name :: i.fieldNames)])

/-- What the literal of a text denotes in an attribute: the literals of the indices denote
code points, and the others denote units. -/
def denotedIn (name : String) : String → List ℕ :=
  if name = "__sql_indexes__" then points else units

/-- The literals of an attribute denote texts in their order, as it writes them. -/
structure Attribute.States (a : Attribute) (stated : String × List String) : Prop where
  name : a.name = stated.1
  literals : literals? true a.value.toList = some (stated.2.map (denotedIn stated.1))

/-- They are the texts themselves exactly in the attribute of the indices and within the first
plane. -/
theorem Attribute.States.literals_iff {a : Attribute} {stated : String × List String}
    (h : a.States stated) :
    literals? true a.value.toList = some (stated.2.map points) ↔
      stated.1 = "__sql_indexes__" ∨ ∀ x ∈ stated.2, ∀ c ∈ x.toList, c.toNat < 0x10000 := by
  rw [h.literals, Option.some_inj, List.map_inj_left, denotedIn]
  split
  · rename_i indices
    exact ⟨fun _ => .inl indices, fun _ _ _ => rfl⟩
  · rename_i other
    simp only [other, false_or, units_eq_points_iff]

variable {s : Schema} {d : Declarations} {m : Model}

/-- Each attribute of the model of a schema states its texts. -/
theorem states_tableAttributes (made : ofSchema s d = .ok m) :
    List.Forall₂ Attribute.States m.tableAttributes (statedTexts s d) := by
  obtain ⟨key, -, made⟩ := bind_eq_ok.1 made
  split at made
  case isTrue => cases made
  cases made
  refine List.rel_append
    (List.rel_append (List.rel_append (List.rel_append ?source ?key) ?type)
    ?foreignKeys) ?indices
  case source => exact .cons ⟨rfl, (reads_literal s.source).literals⟩ .nil
  case key =>
    cases s.primaryKey with
    | none => exact .nil
    | some k => exact .cons ⟨rfl, (reads_literalList k.fieldNames).literals⟩ .nil
  case type =>
    cases d.hasBinaryForeignKey with
    | false => exact .nil
    | true => exact .cons ⟨rfl, (reads_literal "binary_id").literals⟩ .nil
  case foreignKeys =>
    have read :=
      (reads_foreignKeys (s.foreignKeys.map fun k => (k.field, targetOf k))).literals
    rw [List.flatMap_map] at read
    cases none : s.foreignKeys with
    | nil => exact .nil
    | cons k ks =>
      rw [none] at read
      exact .cons ⟨rfl, read⟩ .nil
  case indices =>
    have read :=
      (reads_indices (s.indices.map fun i => ⟨i.name, i.fieldNames, i.unique⟩)).literals
    rw [List.flatMap_map] at read
    cases none : s.indices with
    | nil => exact .nil
    | cons i is =>
      rw [none] at read
      exact .cons ⟨rfl, read⟩ .nil

/-! ## Rendered models -/

/-- The lines in front of the attributes that describe the table. -/
def front (m : Model) : String :=
  String.join (m.opening.map (· ++ "\n"))

/-- The lines behind them. -/
def back (m : Model) : String :=
  String.join
    (["", "    model_config = \x7b\"populate_by_name\": True\x7d",
      ""].map (· ++ "\n")) ++ m.body

theorem render_eq_attributes (m : Model) :
    m.render = m.front ++ String.join (m.tableAttributes.map Attribute.text) ++ m.back := by
  rw [render_eq, head, front, back, ← join_tableLines]
  simp only [List.map_append, String.join_append, String.append_assoc]

/-- The class that is rendered for a schema begins with the attributes that describe its
table. Their literals denote the texts of the schema in its order, those of the indices by
their code points and the others by their units of 16 bits. So an attribute denotes just its
texts if it is the one of the indices, or if they are within the first plane, and otherwise it
does not. -/
theorem literals_renderModel {text : String} (written : s.renderModel d = .ok text) :
    ∃ m, ofSchema s d = .ok m ∧
      text = m.front ++ String.join (m.tableAttributes.map Attribute.text) ++ m.back ∧
      List.Forall₂ (fun a stated => a.States stated ∧
        (literals? true a.value.toList = some (stated.2.map points) ↔
          stated.1 = "__sql_indexes__" ∨ ∀ x ∈ stated.2, ∀ c ∈ x.toList, c.toNat < 0x10000))
        m.tableAttributes (statedTexts s d) := by
  obtain ⟨m, made, same⟩ := bind_eq_ok.1 written
  cases same
  exact ⟨m, made, m.render_eq_attributes,
    (states_tableAttributes made).imp fun _ _ states => ⟨states, states.literals_iff⟩⟩

/-! ### Texts within the first plane -/

/-- A schema with texts that both writers must escape. -/
def ledger : Schema where
  source := "Buchführung <\"1\">"
  fields := []
  primaryKey := some ⟨[
    { name := "日付", type := .named "date" }, { name := "nr\\", type := .named "integer" }]⟩
  foreignKeys := [⟨"konto", "konten & co", some "id", none⟩]
  indices := [
    { name := "\"nach\"\nkonto", fields := [{ name := "konto", type := .named "integer" }] }]

theorem literals_renderModel_ledger :
    ∃ m, ofSchema ledger (.ofSchema ledger) = .ok m ∧ ledger.renderModel = .ok m.render ∧
      m.tableAttributes.map (·.name) =
        ["__sql_table__", "__sql_primary_key__", "__sql_foreign_keys__", "__sql_indexes__"] ∧
      List.Forall₂ (fun a stated => literals? true a.value.toList =
        some (stated.2.map points))
        m.tableAttributes (statedTexts ledger (.ofSchema ledger)) := by
  obtain ⟨m, made, text, states⟩ :=
    literals_renderModel (s := ledger) (d := .ofSchema ledger) rfl
  have within : ((statedTexts ledger (.ofSchema ledger)).all fun stated =>
      stated.2.all fun x => x.toList.all fun c => c.toNat < 0x10000) = true := by
    decide
  simp only [List.all_eq_true, decide_eq_true_eq] at within
  refine ⟨m, made, ?_, ?_, ?_⟩
  · rw [Schema.renderModel, made]
    rfl
  · cases made
    rfl
  · refine List.forall₂_iff_zip.2 ⟨states.length_eq, fun mem => ?_⟩
    have stated := (List.forall₂_iff_zip.1 states).2 mem
    exact stated.2.2 (.inr (within _ (List.of_mem_zip mem).2))

/-! ### A text beyond the first plane -/

/-- Users belong to a team, in a table whose name is one character beyond the first plane. -/
def players : Schema where
  source := "users"
  fields := []
  foreignKeys := [⟨"team_id", "😀", none, none⟩]

/-- The literal for the name of that table denotes two surrogates and not the name. As it is
shown in indices, it would denote the name. -/
theorem not_denoted_beyondFirstPlane :
    (∃ m, ofSchema players (.ofSchema players) = .ok m ∧ players.renderModel = .ok m.render ∧
      m.tableAttributes = [⟨"__sql_table__", "str", literal "users"⟩,
        ⟨"__sql_foreign_keys__", "Dict[str, str]",
          block "\x7b" "\x7d" [literal "team_id" ++ ": " ++ literal "😀"]⟩]) ∧
    literals? true (block "\x7b" "\x7d" [literal "team_id" ++ ": " ++ literal "😀"]).toList =
      some [points "team_id", [0xD83D, 0xDE00]] ∧
    points "😀" = [0x1F600] ∧
    literals? true (Text.quoted "😀").toList = some [points "😀"] :=
  ⟨⟨_, rfl, rfl, rfl⟩, (reads_foreignKeys [("team_id", "😀")]).literals, rfl,
    (reads_quoted "😀").literals⟩

end Schemata.Model
