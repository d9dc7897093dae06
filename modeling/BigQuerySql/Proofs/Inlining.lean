import BigQuerySql.Proofs.Binding
import BigQuerySql.Proofs.CalendarText

namespace BigQuerySql

open Calendar

namespace DateTime

def writtenInstant? (s : String) : Option DateTime :=
  -- a text without an offset is in UTC
  readZoned? s <|> wholeBlank (dateThenTime true blanks) s.toList

theorem writtenInstant_text (t : DateTime) : writtenInstant? (t.text " ") = some t := by
  have hmark : " ".toList = [' '] := rfl
  have htime := hms_text true t.time [] (by simp [Escapes])
  rw [List.append_nil] at htime
  have hzoned : readZoned? (t.text " ") = none := by
    simp only [readZoned?, wholeBlank, looseZoned, DateTime.text, String.toList_append, hmark, List.append_assoc,
      List.cons_append, List.nil_append, ymd_text, Option.bind_eq_bind, Option.bind_some, dateTimeMark, decide_true,
      Bool.or_true, if_pos, htime]
    rfl
  rw [writtenInstant?, hzoned, Option.orElse_eq_orElse, Option.orElse_eq_or, Option.none_or]
  refine wholeBlank_of_empty ?_
  simp only [dateThenTime, DateTime.text, String.toList_append, hmark, List.append_assoc, List.cons_append,
    List.nil_append, ymd_text, Option.bind_eq_bind, Option.bind_some, blanks, skipBlanks_time, htime]
  rfl

theorem writtenInstant_instantText (t : DateTime) : writtenInstant? (Value.instantText t) = some t := by
  have hmark : " ".toList = [' '] := rfl
  have hoffset : "+00:00".toList = ['+', '0', '0', ':', '0', '0'] := rfl
  have htime := hms_text true t.time ['+', '0', '0', ':', '0', '0'] (by simp [Escapes, continuesSeconds])
  have hutc : zone ['+', '0', '0', ':', '0', '0'] = some (0, []) := rfl
  have hzoned : readZoned? (Value.instantText t) = some t := by
    refine wholeBlank_of_empty ?_
    simp only [looseZoned, Value.instantText, DateTime.text, String.toList_append, hmark, hoffset, List.append_assoc,
      List.cons_append, List.nil_append, ymd_text, Option.bind_eq_bind, Option.bind_some, dateTimeMark, decide_true,
      Bool.or_true, if_pos, htime, skipBlanks_cons (c := '+') (by decide), hutc, toUtc_zero]
    rfl
  rw [writtenInstant?, hzoned]
  rfl

end DateTime

def Binary64.literalText : Binary64 → String
  | .nan => "CAST('nan' AS FLOAT64)"
  | .infinite negative => "CAST('" ++ signText negative ++ "inf' AS FLOAT64)"
  | x => x.text Sql.doubleStyle

inductive InlinesLeaf : DataType → Value → String → Prop where
  | date (d : Date) : InlinesLeaf .date (.date d) ("DATE '" ++ d.text ++ "'")
  | timestamp {timezone : Option String} {t : DateTime} {s : String} (h : DateTime.writtenInstant? s = some t) :
      InlinesLeaf (.timestamp timezone) (.instant t) ("TIMESTAMP '" ++ s ++ "'")
  | string (s : String) : InlinesLeaf .string (.string s) (Sql.stringLiteral s)
  | bool (b : Bool) : InlinesLeaf .bool (.bool b) (if b then "TRUE" else "FALSE")
  | int {dtype : DataType} (h : dtype.isInteger) (i : Int64) : InlinesLeaf dtype (.int i) (toString i.toInt)
  | float {dtype : DataType} (h : dtype.isFloating) (x : Binary64) : InlinesLeaf dtype (.float x) x.literalText

inductive InlinesItem (element : DataType) : Value → String → Prop where
  -- an item of an array may be null, where a parameter by itself may not
  | null : InlinesItem element .null "NULL"
  | leaf {v : Value} {text : String} (h : InlinesLeaf element v text) : InlinesItem element v text

mutual

inductive Inlines : DataType → QueryParameter → String → Prop where
  | scalar {dtype : DataType} {name typeName text : String} {v : Value} (h : InlinesLeaf dtype v text) :
      Inlines dtype (.scalar name typeName v) text
  | array {element : DataType} {name typeName : String} {values : List Value} {texts : List String}
      (h : List.Forall₂ (InlinesItem element) values texts) :
      Inlines (.array element) (.array name typeName values) ("[" ++ String.intercalate ", " texts ++ "]")
  | struct {fields : List FieldType} {name : String} {members : List QueryParameter} {texts : List String}
      (h : InlinesMembers fields members texts) :
      Inlines (.struct fields) (.struct name members) ("STRUCT(" ++ String.intercalate ", " texts ++ ")")
  | structs {fields : List FieldType} {name : String} {items : List (String × List QueryParameter)}
      {texts : List String} (h : InlinesItems fields items texts) :
      Inlines (.array (.struct fields)) (.structs name items) ("[" ++ String.intercalate ", " texts ++ "]")

inductive InlinesMembers : List FieldType → List QueryParameter → List String → Prop where
  | nil {fields : List FieldType} : InlinesMembers fields [] []
  | cons {fields : List FieldType} {field : FieldType} {p : QueryParameter} {rest : List QueryParameter} {text : String}
      {texts : List String} (hfield : (fields.find? fun f => f.name == p.name) = some field)
      (h : Inlines field.dtype p text) (hrest : InlinesMembers fields rest texts) :
      InlinesMembers fields (p :: rest) ((text ++ " AS " ++ Sql.backtick p.name) :: texts)

inductive InlinesItems : List FieldType → List (String × List QueryParameter) → List String → Prop where
  | nil {fields : List FieldType} : InlinesItems fields [] []
  | cons {fields : List FieldType} {name text : String} {members : List QueryParameter}
      {rest : List (String × List QueryParameter)} {texts : List String}
      (h : Inlines (.struct fields) (.struct name members) text) (hrest : InlinesItems fields rest texts) :
      InlinesItems fields ((name, members) :: rest) (text :: texts)

end

namespace Value

theorem plainLiteral_date {v : Value} {d : Date} (h : v.date? = some d) :
    v.plainLiteral .date = .ok ("DATE '" ++ d.text ++ "'") := by
  cases v <;> simp [date?] at h <;> simp [plainLiteral, date?, h]

theorem plainLiteral_dateTime {v : Value} {t : DateTime} {timezone : Option String} (h : v.dateTime? = some t) :
    v.plainLiteral (.timestamp timezone) = .ok ("TIMESTAMP '" ++ t.text " " ++ "'") := by
  cases v <;> simp [dateTime?] at h <;> simp [plainLiteral, dateTime?, h]

theorem plainLiteral_null (dtype : DataType) : Value.null.plainLiteral dtype = .ok "NULL" := by
  cases dtype <;> rfl

theorem plainLiteral_int {dtype : DataType} (h : dtype.isInteger) (i : Int64) :
    (Value.int i).plainLiteral dtype = .ok (toString i.toInt) := by
  cases dtype <;> simp [DataType.isInteger] at h <;> rfl

theorem plainLiteral_float {dtype : DataType} (h : dtype.isFloating) (x : Binary64) :
    (Value.float x).plainLiteral dtype = .ok x.literalText := by
  cases dtype <;> simp [DataType.isFloating] at h <;> cases x <;> rfl

theorem plainLiteral_instant {v : Value} {t : DateTime} {timezone : Option String} (h : v.instant? = some t) :
    ∃ s, v.plainLiteral (.timestamp timezone) = .ok ("TIMESTAMP '" ++ s ++ "'") ∧
      DateTime.writtenInstant? s = some t := by
  have hplain (h : v.dateTime? = some t) : ∃ s, v.plainLiteral (.timestamp timezone) = .ok ("TIMESTAMP '" ++ s ++ "'") ∧
      DateTime.writtenInstant? s = some t :=
    ⟨t.text " ", plainLiteral_dateTime h, t.writtenInstant_text⟩
  cases v with
  | instant other =>
    obtain rfl : other = t := Option.some.inj h
    exact ⟨instantText other, rfl, other.writtenInstant_instantText⟩
  | _ => exact hplain h

end Value

namespace QueryParameter

theorem inlines_bindScalar {name : String} {dtype : DataType} {v : Value} {p : QueryParameter}
    (h : bindScalar name dtype v = .ok p) : ∃ text, v.plainLiteral dtype = .ok text ∧ Inlines dtype p text := by
  obtain ⟨typeName, w, hleaf, rfl⟩ := bindScalar_ok_iff.mp h
  cases hleaf with
  | timestamp ht =>
    obtain ⟨s, hliteral, hs⟩ := Value.plainLiteral_instant (Value.denotesInstant_iff.mp ht)
    exact ⟨_, hliteral, .scalar (.timestamp hs)⟩
  | date hd => exact ⟨_, Value.plainLiteral_date (Value.denotesDate_iff.mp hd), .scalar (.date _)⟩
  | string s => exact ⟨_, rfl, .scalar (.string s)⟩
  | bool b =>
    refine ⟨_, ?_, .scalar (.bool b)⟩
    cases b <;> rfl
  | int hint i => exact ⟨_, Value.plainLiteral_int hint i, .scalar (.int hint i)⟩
  | float hfloat x => exact ⟨_, Value.plainLiteral_float hfloat x, .scalar (.float hfloat x)⟩

def Inlinable (v : Value) : Prop :=
  ∀ {name : String} {dtype : DataType} {p : QueryParameter}, bind name dtype v = .ok p →
    ∃ text, v.literal dtype = .ok text ∧ Inlines dtype p text

theorem inlines_members {fields : List FieldType} {members : List (String × Value)} {bound : List QueryParameter}
    (h : List.Forall₂ (Binds fields) members bound)
    (ih : ∀ m ∈ members, Inlinable m.2) :
    ∃ texts, List.Forall₂ (fun m w => Value.memberLiteral fields m = .ok w) members texts ∧
      InlinesMembers fields bound texts := by
  induction h with
  | nil => exact ⟨[], .nil, .nil⟩
  | @cons m p rest others hm _ hrest =>
    obtain ⟨field, hfield, hbind⟩ := hm
    rw [List.forall_mem_cons] at ih
    obtain ⟨text, hliteral, hinlines⟩ := ih.1 hbind
    obtain ⟨texts, htexts, hmembers⟩ := hrest ih.2
    have hname : p.name = m.1 := bind_name hbind
    refine ⟨(text ++ " AS " ++ Sql.backtick p.name) :: texts, .cons ?_ htexts, .cons (hname ▸ hfield) hinlines hmembers⟩
    simp only [Value.memberLiteral, hfield, hliteral, hname]
    rfl

theorem inlines_structs {fields : List FieldType} {items : List Value} {bound : List (String × List QueryParameter)}
    (h : List.Forall₂ (BindsItem fields) items bound)
    (ih : ∀ x ∈ items, Inlinable x) :
    ∃ texts, List.Forall₂ (fun x w => x.literal (.struct fields) = .ok w) items texts ∧
      InlinesItems fields bound texts := by
  induction h with
  | nil => exact ⟨[], .nil, .nil⟩
  | @cons x b rest others hx _ hrest =>
    obtain ⟨members, rfl, hmembers⟩ := hx
    rw [List.forall_mem_cons] at ih
    have hbind : bind b.1 (.struct fields) (.struct members) = .ok (.struct b.1 b.2) :=
      bind_struct.mpr ⟨fields, b.2, rfl, hmembers, rfl⟩
    obtain ⟨text, hliteral, hinlines⟩ := ih.1 hbind
    obtain ⟨texts, htexts, hitems⟩ := hrest ih.2
    exact ⟨text :: texts, .cons hliteral htexts, .cons hinlines hitems⟩

theorem inlines_items {name : String} {element : DataType} {items values : List Value}
    (h : bindItems name element items = .ok values)
    (ih : ∀ x ∈ items, Inlinable x) :
    ∃ texts, List.Forall₂ (fun x w => x.literal element = .ok w) items texts ∧
      List.Forall₂ (InlinesItem element) values texts := by
  have hbound := bindItems_ok.mp h
  clear h
  induction hbound with
  | nil => exact ⟨[], .nil, .nil⟩
  | @cons x v rest others hx _ hrest =>
    rw [List.forall_mem_cons] at ih
    obtain ⟨texts, htexts, hitems⟩ := hrest ih.2
    rcases hx with ⟨rfl, rfl⟩ | ⟨own, typeName, hbind⟩
    · refine ⟨"NULL" :: texts, .cons ?_ htexts, .cons .null hitems⟩
      rw [Value.literal_plain rfl, Value.plainLiteral_null]
    · obtain ⟨text, hliteral, hinlines⟩ := ih.1 hbind
      cases hinlines with
      | scalar hleaf => exact ⟨text :: texts, .cons hliteral htexts, .cons (.leaf hleaf) hitems⟩

/-- Whatever can be bound can be written as a constant, and the constant gives the dates and the instants that are
bound. -/
theorem bound_values_inline {name : String} {dtype : DataType} {v : Value} {p : QueryParameter}
    (h : bind name dtype v = .ok p) : ∃ text, v.literal dtype = .ok text ∧ Inlines dtype p text := by
  induction v using Value.induction_on generalizing name dtype p with
  | plain v hv =>
    rw [bind_plain hv] at h
    rw [Value.literal_plain hv]
    exact inlines_bindScalar h
  | array items ih =>
    rcases bind_array h with ⟨fields, bound, rfl, hbound, rfl⟩ | ⟨element, typeName, values, rfl, -, -, hvalues, -, rfl⟩
    · obtain ⟨texts, htexts, hitems⟩ := inlines_structs (bindStructs_ok hbound) ih
      exact ⟨_, Value.literal_array.mpr ⟨_, texts, rfl, htexts, rfl⟩, .structs hitems⟩
    · obtain ⟨texts, htexts, hitems⟩ := inlines_items hvalues ih
      exact ⟨_, Value.literal_array.mpr ⟨_, texts, rfl, htexts, rfl⟩, .array hitems⟩
  | struct members ih =>
    obtain ⟨fields, bound, rfl, hbound, rfl⟩ := bind_struct.mp h
    obtain ⟨texts, htexts, hmembers⟩ := inlines_members hbound ih
    exact ⟨_, Value.literal_struct.mpr ⟨_, texts, rfl, htexts, rfl⟩, .struct hmembers⟩

def visitType : DataType :=
  .struct [⟨"day", .date, true⟩, ⟨"calls", .array (.timestamp none), true⟩]

def visit : Value :=
  .struct [("calls", .array [.string "2024-02-29T23:30:00-01:00", .null]), ("day", .string "2024-02-29 12:00:00")]

theorem visit_inlines :
    ∃ p text, bind "visit" visitType visit = .ok p ∧ visit.literal visitType = .ok text ∧ Inlines visitType p text ∧
      text = "STRUCT([TIMESTAMP '2024-03-01 00:30:00', NULL] AS \x60calls\x60, DATE '2024-02-29' AS \x60day\x60)" := by
  have hbinds : (bind "visit" visitType visit).toOption.isSome := by decide +kernel
  have hwritten : (visit.literal visitType).toOption =
      some "STRUCT([TIMESTAMP '2024-03-01 00:30:00', NULL] AS \x60calls\x60, DATE '2024-02-29' AS \x60day\x60)" := by
    decide +kernel
  cases h : bind "visit" visitType visit with
  | error error => simp [h, Except.toOption] at hbinds
  | ok p =>
    obtain ⟨text, hliteral, hinlines⟩ := bound_values_inline h
    rw [hliteral] at hwritten
    exact ⟨p, text, rfl, hliteral, hinlines, Option.some.inj hwritten⟩

end QueryParameter

end BigQuerySql
