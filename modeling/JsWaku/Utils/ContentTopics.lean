import JsWaku.Utils.NetworkConfig

/-!
# The grammar of content topics

`ensureValidContentTopic` of `packages/utils/src/common/sharding/index.ts` against the grammar of autosharding,
`/application/version/name/encoding` with or without a generation in front (`InGrammar`). It accepts every topic of the
grammar, as what it is, and others besides: those with something before the first slash, and those with a generation
that `parseInt` reads as a number that is not positive (`accepted_iff`).
-/

namespace JsWaku.Sharding

open Text

/-- A field of a content topic. -/
def IsField (text : String) : Prop := text ≠ "" ∧ '/' ∉ text.toList

/-- A decimal numeral for zero. -/
def IsZero (text : String) : Prop := text ≠ "" ∧ ∀ c ∈ text.toList, c = '0'

/-- The content topic is one of autosharding, with these fields. -/
structure InGrammar (contentTopic : String) (topic : ContentTopic) : Prop where
  generation : topic.generation = 0
  application : IsField topic.application
  version : IsField topic.version
  topicName : IsField topic.topicName
  encoding : IsField topic.encoding
  text :
    contentTopic = "/" ++ topic.application ++ "/" ++ topic.version ++ "/" ++ topic.topicName ++ "/" ++ topic.encoding ∨
      ∃ generation, IsZero generation ∧ contentTopic = "/" ++ generation ++ "/" ++ topic.application ++ "/" ++
        topic.version ++ "/" ++ topic.topicName ++ "/" ++ topic.encoding

/-- The fields at the end of a content topic. -/
def ContentTopic.fields (topic : ContentTopic) : List String :=
  [topic.application, topic.version, topic.topicName, topic.encoding]

/-! ## The parts of a topic -/

/-- A numeral for zero is read as zero. -/
theorem parseNumber_of_isZero {generation : String} (h : IsZero generation) : parseNumber generation = some 0 := by
  obtain ⟨hne, hzero⟩ := h
  have hlist : generation.toList ≠ [] := fun h => hne (String.toList_eq_nil_iff.1 h)
  have hdigits : ∀ c ∈ generation.toList, c.isDigit = true := by
    intro c hc
    rw [hzero c hc]
    rfl
  have hvalue : ∀ cs : List Char, (∀ c ∈ cs, c = '0') → Nat.ofDigitChars 10 cs 0 = 0 := by
    intro cs hcs
    induction cs with
    | nil => rfl
    | cons c cs ih =>
      obtain ⟨rfl, hrest⟩ := List.forall_mem_cons.1 hcs
      rw [Nat.ofDigitChars_cons]
      exact ih hrest
  rw [parseNumber, ← String.ofList_toList (s := generation), parseInt_of_isDigit hlist hdigits, hvalue _ hzero]
  rfl

theorem not_mem_of_isZero {generation : String} (h : IsZero generation) : '/' ∉ generation.toList :=
  fun hmem => absurd (h.2 '/' hmem) (by decide)

theorem fields_ne_empty {topic : ContentTopic} : (∀ field ∈ topic.fields, field ≠ "") ↔
    topic.application ≠ "" ∧ topic.version ≠ "" ∧ topic.topicName ≠ "" ∧ topic.encoding ≠ "" := by
  simp [ContentTopic.fields]

/-- A topic of the grammar, by its parts. -/
theorem inGrammar_iff {contentTopic : String} {topic : ContentTopic} :
    InGrammar contentTopic topic ↔ topic.generation = 0 ∧ (∀ field ∈ topic.fields, field ≠ "") ∧
      (split '/' contentTopic = "" :: topic.fields ∨
        ∃ generation, IsZero generation ∧ split '/' contentTopic = "" :: generation :: topic.fields) := by
  have hshort : split '/' contentTopic = "" :: topic.fields ↔ (∀ field ∈ topic.fields, '/' ∉ field.toList) ∧
      contentTopic = "/" ++ topic.application ++ "/" ++ topic.version ++ "/" ++ topic.topicName ++ "/" ++
        topic.encoding := by
    rw [split_eq_iff (by simp), and_comm, ← String.toList_inj]
    simp [ContentTopic.fields, List.intercalate, List.intersperse]
  have hlong : ∀ generation, '/' ∉ generation.toList → (split '/' contentTopic = "" :: generation :: topic.fields ↔
      (∀ field ∈ topic.fields, '/' ∉ field.toList) ∧ contentTopic = "/" ++ generation ++ "/" ++ topic.application ++
        "/" ++ topic.version ++ "/" ++ topic.topicName ++ "/" ++ topic.encoding) := by
    intro generation hgeneration
    rw [split_eq_iff (by simp), and_comm, ← String.toList_inj]
    simp [ContentTopic.fields, List.intercalate, List.intersperse, hgeneration]
  constructor
  · rintro ⟨hgeneration, ⟨ha, ha'⟩, ⟨hv, hv'⟩, ⟨hn, hn'⟩, ⟨he, he'⟩, htext⟩
    have hslash : ∀ field ∈ topic.fields, '/' ∉ field.toList := by simp [ContentTopic.fields, ha', hv', hn', he']
    refine ⟨hgeneration, fields_ne_empty.2 ⟨ha, hv, hn, he⟩, ?_⟩
    rcases htext with htext | ⟨generation, hzero, htext⟩
    · exact .inl (hshort.2 ⟨hslash, htext⟩)
    · exact .inr ⟨generation, hzero, (hlong generation (not_mem_of_isZero hzero)).2 ⟨hslash, htext⟩⟩
  · rintro ⟨hgeneration, hne, hsplit⟩
    obtain ⟨ha, hv, hn, he⟩ := fields_ne_empty.1 hne
    have hparts : ∀ field ∈ topic.fields, field ∈ split '/' contentTopic := by
      intro field hfield
      rcases hsplit with hsplit | ⟨generation, -, hsplit⟩ <;> rw [hsplit] <;> simp [hfield]
    have hfield : ∀ field ∈ topic.fields, '/' ∉ field.toList := fun field h => not_mem_of_mem_split (hparts field h)
    refine ⟨hgeneration, ⟨ha, hfield _ ?_⟩, ⟨hv, hfield _ ?_⟩, ⟨hn, hfield _ ?_⟩, ⟨he, hfield _ ?_⟩, ?_⟩
    · simp [ContentTopic.fields]
    · simp [ContentTopic.fields]
    · simp [ContentTopic.fields]
    · simp [ContentTopic.fields]
    · rcases hsplit with hsplit | ⟨generation, hzero, hsplit⟩
      · exact .inl (hshort.1 hsplit).2
      · exact .inr ⟨generation, hzero, ((hlong generation (not_mem_of_isZero hzero)).1 hsplit).2⟩

section

variable {contentTopic start field application version topicName encoding : String} {topic : ContentTopic}

/-- A topic of five parts is accepted if its fields are not empty. -/
theorem accepted_five (h : split '/' contentTopic = [start, application, version, topicName, encoding]) :
    ensureValidContentTopic contentTopic = .ok topic ↔ (∀ field ∈ topic.fields, field ≠ "") ∧ topic.generation = 0 ∧
      topic.fields = [application, version, topicName, encoding] := by
  rw [ensureValidContentTopic, h, fields_ne_empty]
  simp only [check_eq_ok, bind_eq_ok, ensureValidGeneration, List.length_cons, List.length_nil, Nat.reduceAdd,
    Nat.reduceLT, Nat.reduceSub, List.drop_succ_cons, List.drop_zero, String.isEmpty_iff]
  constructor
  · rintro ⟨-, generation, hgeneration, ha, hv, hn, he, htopic⟩
    cases hgeneration
    cases htopic
    exact ⟨⟨ha, hv, hn, he⟩, rfl, rfl⟩
  · obtain ⟨generation, a, v, n, e⟩ := topic
    rintro ⟨⟨ha, hv, hn, he⟩, hgeneration, hfields⟩
    cases hgeneration
    cases hfields
    exact ⟨by decide, 0, rfl, ha, hv, hn, he, rfl⟩

/-- A topic of six parts is accepted if its generation is read as a number that is not positive, too. -/
theorem accepted_six (h : split '/' contentTopic = [start, field, application, version, topicName, encoding]) :
    ensureValidContentTopic contentTopic = .ok topic ↔ (∀ field ∈ topic.fields, field ≠ "") ∧
      parseNumber field = some topic.generation ∧ topic.generation ≤ 0 ∧
        topic.fields = [application, version, topicName, encoding] := by
  rw [ensureValidContentTopic, h, fields_ne_empty]
  simp only [check_eq_ok, bind_eq_ok, ensureValidGeneration, List.length_cons, List.length_nil, Nat.reduceAdd,
    Nat.reduceLT, Nat.reduceSub, List.drop_succ_cons, List.drop_zero, String.isEmpty_iff]
  constructor
  · rintro ⟨-, generation, hgeneration, ha, hv, hn, he, htopic⟩
    cases htopic
    split at hgeneration
    · cases hgeneration
    · next hparsed =>
      split at hgeneration
      · cases hgeneration
      · next hle =>
        cases hgeneration
        exact ⟨⟨ha, hv, hn, he⟩, hparsed, not_lt.1 hle, rfl⟩
  · obtain ⟨generation, a, v, n, e⟩ := topic
    rintro ⟨⟨ha, hv, hn, he⟩, hgeneration, hle, hfields⟩
    cases hfields
    refine ⟨by decide, generation, ?_, ha, hv, hn, he, rfl⟩
    dsimp only at hgeneration hle
    rw [hgeneration]
    exact if_neg (not_lt.2 hle)

end

/-- What is accepted, by its parts. -/
theorem accepted_iff {contentTopic : String} {topic : ContentTopic} :
    ensureValidContentTopic contentTopic = .ok topic ↔ (∀ field ∈ topic.fields, field ≠ "") ∧
      ∃ start, (topic.generation = 0 ∧ split '/' contentTopic = start :: topic.fields) ∨
        ∃ generation, parseNumber generation = some topic.generation ∧ topic.generation ≤ 0 ∧
          split '/' contentTopic = start :: generation :: topic.fields := by
  constructor
  · intro h
    have hlength : 5 ≤ (split '/' contentTopic).length ∧ (split '/' contentTopic).length ≤ 6 := by
      rw [ensureValidContentTopic] at h
      dsimp only at h
      have := (check_eq_ok.1 h).1
      omega
    match hparts : split '/' contentTopic, hlength with
    | [start, application, version, topicName, encoding], _ =>
      obtain ⟨hfields, hgeneration, heq⟩ := (accepted_five hparts).1 h
      exact ⟨hfields, start, .inl ⟨hgeneration, by rw [heq]⟩⟩
    | [start, generation, application, version, topicName, encoding], _ =>
      obtain ⟨hfields, hgeneration, hle, heq⟩ := (accepted_six hparts).1 h
      exact ⟨hfields, start, .inr ⟨generation, hgeneration, hle, by rw [heq]⟩⟩
  · rintro ⟨hfields, start, ⟨hgeneration, hparts⟩ | ⟨generation, hgeneration, hle, hparts⟩⟩
    · exact (accepted_five hparts).2 ⟨hfields, hgeneration, rfl⟩
    · exact (accepted_six hparts).2 ⟨hfields, hgeneration, hle, rfl⟩

/-! ## Exactness -/

/-- What is accepted is the grammar, and as what it is. -/
def Exact (contentTopic : String) : Prop :=
  ((∃ topic, ensureValidContentTopic contentTopic = .ok topic) ↔ ∃ topic, InGrammar contentTopic topic) ∧
    ∀ topic, InGrammar contentTopic topic → ensureValidContentTopic contentTopic = .ok topic

/-- Where four fields that are not empty stand at the end, after a number that is not positive or alone, nothing stands
before the first slash, and the number is a numeral for zero. -/
def PlainStart (contentTopic : String) : Prop :=
  match split '/' contentTopic with
  | [start, application, version, topicName, encoding] =>
    application ≠ "" → version ≠ "" → topicName ≠ "" → encoding ≠ "" → start = ""
  | [start, generation, application, version, topicName, encoding] =>
    application ≠ "" → version ≠ "" → topicName ≠ "" → encoding ≠ "" → (∃ n ∈ parseNumber generation, n ≤ 0) →
      start = "" ∧ IsZero generation
  | _ => True

theorem accepted_of_inGrammar {contentTopic : String} {topic : ContentTopic} (h : InGrammar contentTopic topic) :
    ensureValidContentTopic contentTopic = .ok topic := by
  obtain ⟨hgeneration, hfields, hparts⟩ := inGrammar_iff.1 h
  refine accepted_iff.2 ⟨hfields, "", ?_⟩
  rcases hparts with hparts | ⟨generation, hzero, hparts⟩
  · exact .inl ⟨hgeneration, hparts⟩
  · exact .inr ⟨generation, by rw [parseNumber_of_isZero hzero, hgeneration], hgeneration.le, hparts⟩

/-- **The grammar of content topics.** A text is accepted exactly as the grammar has it if what stands before its first
slash is empty and its generation is a numeral for zero, where the rest of it is in order. -/
theorem exact_iff_plainStart (contentTopic : String) : Exact contentTopic ↔ PlainStart contentTopic := by
  constructor
  · rintro ⟨hexact, -⟩
    unfold PlainStart
    split
    next start application version topicName encoding hparts =>
      intro ha hv hn he
      let topic : ContentTopic := ⟨0, application, version, topicName, encoding⟩
      have haccepted : ensureValidContentTopic contentTopic = .ok topic :=
        (accepted_five hparts).2 ⟨fields_ne_empty.2 ⟨ha, hv, hn, he⟩, rfl, rfl⟩
      obtain ⟨topic', h⟩ := hexact.1 ⟨topic, haccepted⟩
      obtain ⟨-, -, h | ⟨generation, -, h⟩⟩ := inGrammar_iff.1 h
      · rw [hparts] at h
        exact (List.cons.inj h).1
      · rw [hparts] at h
        simp [ContentTopic.fields] at h
    next start field application version topicName encoding hparts =>
      rintro ha hv hn he ⟨n, hfield, hle⟩
      let topic : ContentTopic := ⟨n, application, version, topicName, encoding⟩
      have haccepted : ensureValidContentTopic contentTopic = .ok topic :=
        (accepted_six hparts).2 ⟨fields_ne_empty.2 ⟨ha, hv, hn, he⟩, hfield, hle, rfl⟩
      obtain ⟨topic', h⟩ := hexact.1 ⟨topic, haccepted⟩
      obtain ⟨-, -, h | ⟨generation, hzero, h⟩⟩ := inGrammar_iff.1 h
      · rw [hparts] at h
        simp [ContentTopic.fields] at h
      · rw [hparts] at h
        obtain ⟨hstart, h⟩ := List.cons.inj h
        obtain ⟨rfl, -⟩ := List.cons.inj h
        exact ⟨hstart, hzero⟩
    next => trivial
  · intro hplain
    refine ⟨⟨?_, fun ⟨topic, h⟩ => ⟨topic, accepted_of_inGrammar h⟩⟩, fun topic => accepted_of_inGrammar⟩
    rintro ⟨topic, h⟩
    obtain ⟨hfields, start, hparts⟩ := accepted_iff.1 h
    obtain ⟨ha, hv, hn, he⟩ := fields_ne_empty.1 hfields
    rcases hparts with ⟨hgeneration, hparts⟩ | ⟨generation, hgeneration, hle, hparts⟩
    · rw [PlainStart, hparts] at hplain
      obtain rfl := hplain ha hv hn he
      exact ⟨topic, inGrammar_iff.2 ⟨hgeneration, hfields, .inl hparts⟩⟩
    · rw [PlainStart, hparts] at hplain
      obtain ⟨rfl, hzero⟩ := hplain ha hv hn he ⟨_, hgeneration, hle⟩
      have h0 : topic.generation = 0 := by
        rw [parseNumber_of_isZero hzero] at hgeneration
        exact (Option.some.inj hgeneration).symm
      exact ⟨topic, inGrammar_iff.2 ⟨h0, hfields, .inr ⟨generation, hzero, hparts⟩⟩⟩

/-- A start, a sign and a suffix are accepted, outside of the grammar. -/
theorem not_exact : ¬Exact "x/-0abc/toychat/2/huilong/proto" := by
  intro h
  obtain ⟨topic, hgrammar⟩ := h.1.1 ⟨⟨0, "toychat", "2", "huilong", "proto"⟩, by decide +kernel⟩
  have hsplit : split '/' "x/-0abc/toychat/2/huilong/proto" = ["x", "-0abc", "toychat", "2", "huilong", "proto"] := by
    decide +kernel
  obtain ⟨-, -, hparts | ⟨generation, -, hparts⟩⟩ := inGrammar_iff.1 hgrammar
  · exact absurd (List.cons.inj (hsplit.symm.trans hparts)).1 (by decide)
  · exact absurd (List.cons.inj (hsplit.symm.trans hparts)).1 (by decide)

end JsWaku.Sharding
