import ApiTools.Proofs.EmittedPrograms
import ApiTools.Proofs.SharedIdentifiers

/-!
# Agreement of live and generated servers

A live server reads a call by the input model of its tool, a generated one runs the function that is
read of its source. Both hand on the same tool with the same arguments, made of the same values, and
do the same with them: they send the same request, or describe the call where no URL is known
(`emitted_agrees`).
-/

namespace ApiTools

namespace Emission

open Catalog (ofDocument index nonEmpty?)

/-! ### Runs of functions -/

section Runs

variable {f : Function} {a : Argument} {keywords : Arguments}
  {values : List (Option ApiTools.Argument)}

private theorem local?_identifier (ha : a ∈ f.arguments) :
    (sourceOf f).local? keywords a.identifier =
      some ((keywords.get? a.identifier).getD .null) := by
  have hmem : a.identifier ∈ (sourceOf f).parameters.map (·.name) := by
    rw [sourceOf, List.map_map]
    exact List.mem_map.mpr ⟨a, ha, rfl⟩
  rw [SourceFunction.local?, if_pos hmem]

/-- A step sets what is given for its argument. -/
theorem step?_stepOf (ha : a ∈ f.arguments) (args : Arguments) :
    (sourceOf f).step? keywords args (stepOf a) =
      some (match keywords.given? a.identifier with
        | some v => args.set a.name v
        | none => args) := by
  rw [SourceFunction.step?, stepOf]
  simp only [local?_identifier ha, Option.bind_eq_bind, Option.bind_some, Option.pure_def]
  rw [Arguments.given?_eq_filter]
  cases keywords.get? a.identifier with
  | none => rfl
  | some v => cases v <;> rfl

private theorem keys_sourceOf (f : Function) :
    (sourceOf f).steps.map (·.key) = (collected f.arguments).map (·.name) := by
  rw [sourceOf, List.map_map]
  rfl

private theorem values_sourceOf (f : Function) :
    (sourceOf f).steps.map (·.value) = (collected f.arguments).map (·.identifier) := by
  rw [sourceOf, List.map_map]
  rfl

/-- A function that can be called collects what is given for its arguments. -/
theorem run?_sourceOf (h : (sourceOf f).binds keywords = true) :
    (sourceOf f).run? keywords = some (collect f keywords) := by
  have hsteps : ∀ as ⊆ f.arguments, ∀ args : Arguments,
      (as.map stepOf).foldlM ((sourceOf f).step? keywords) args =
        some (as.foldl (fun args a ↦
          match keywords.given? a.identifier with
          | some v => args.set a.name v
          | none => args) args) := by
    intro as
    induction as with
    | nil => exact fun _ _ ↦ rfl
    | cons a others ih =>
      intro has args
      obtain ⟨ha, hothers⟩ := List.cons_subset.mp has
      rw [List.map_cons, List.foldlM_cons, step?_stepOf ha, List.foldl_cons]
      exact ih hothers _
  rw [SourceFunction.run?, if_pos h, collect]
  exact hsteps _ (collected_perm f.arguments).subset []

/-- Where required parameters come first, an assignment of well-typed values to the identifiers of a
function can be passed to it. -/
theorem binds_of_assigned (hfirst : RequiredFirst f.tool.parameters)
    (hargs : arguments f.tool = .ok f.arguments) (htakes : f.tool.Takes values)
    (hkeywords : keywords.Perm (assign ((collected f.arguments).map (·.identifier)) values)) :
    (sourceOf f).binds keywords = true := by
  have hnames : (sourceOf f).parameters.map (·.name) = f.arguments.map (·.identifier) := by
    rw [sourceOf, List.map_map]
    rfl
  rw [SourceFunction.binds, Bool.and_eq_true, List.all_eq_true, List.all_eq_true, hnames]
  constructor
  · rintro ⟨name, v⟩ hk
    rw [decide_eq_true_eq]
    have hmem : name ∈ (assign ((collected f.arguments).map (·.identifier)) values).names :=
      List.mem_map.mpr ⟨_, hkeywords.mem_iff.mp hk, rfl⟩
    obtain ⟨a, ha, rfl⟩ := List.mem_map.mp ((names_assign_sublist _ _).subset hmem)
    exact List.mem_map.mpr ⟨a, (collected_perm f.arguments).mem_iff.mp ha, rfl⟩
  · refine List.forall_mem_map.mpr fun a ha ↦ ?_
    have htakesAll := collected_take hfirst hargs htakes
    obtain ⟨v, hzip⟩ := exists_mem_zip htakesAll ((collected_perm f.arguments).mem_iff.mpr ha)
    rw [parameterOf, get?_of_assigned hfirst hargs hkeywords hzip]
    cases hrequired : a.required with
    | false => rfl
    | true => rw [List.forall₂_zip htakesAll hzip hrequired, Bool.or_true]

/-- A function that is given an assignment of well-typed values collects them by the names of the
parameters. -/
theorem run?_of_assigned (hfirst : RequiredFirst f.tool.parameters)
    (hargs : arguments f.tool = .ok f.arguments) (htakes : f.tool.Takes values)
    (hkeywords : keywords.Perm (assign ((collected f.arguments).map (·.identifier)) values)) :
    (sourceOf f).run? keywords = some (Fields.ofList
      (assign (f.tool.parameters.map (·.name) ++ InputModel.bodyNames f.tool) values)) := by
  rw [run?_sourceOf (binds_of_assigned hfirst hargs htakes hkeywords),
    collect_of_assigned hfirst hargs hkeywords htakes]

end Runs

/-! ### Servers -/

section Servers

variable {document : Document} {settings : Settings} {timeout : Seconds} {tools : List Tool}
  {c : Content}

private theorem find?_of_nodup {α : Type} {key : α → Text} {l : List α}
    (hnodup : (l.map key).Nodup) {a : α} (ha : a ∈ l) :
    l.find? (fun b ↦ key b = key a) = some a := by
  induction l with
  | nil => cases ha
  | cons b rest ih =>
    rw [List.map_cons, List.nodup_cons] at hnodup
    rcases List.mem_cons.mp ha with rfl | ha
    · exact List.find?_cons_of_pos (decide_eq_true rfl)
    · have hne : key b ≠ key a := fun h ↦ hnodup.1 (h ▸ List.mem_map_of_mem ha)
      simp only [List.find?_cons, decide_eq_false hne]
      exact ih hnodup.2 ha

private theorem exists_content_ofDocument (document : Document) (baseUrl : Text)
    (timeout : Seconds) : ∃ c, content document (ofDocument document) baseUrl timeout = .ok c :=
  (exists_content_iff document (ofDocument document) baseUrl timeout).mpr fun _ htool p hp ↦
    .inl (p.exists_slotType_iff.mp (Catalog.slotTypes (Catalog.mem_of_mem_values htool) hp))

private theorem serverFile_eq (c : Content) : serverFile c = serverHead c ++
    (serverSettings c ++ (definitions c ++
      (callFunction ++ (c.functions.flatMap toolFunction ++ serverTail)))) := by
  rw [serverFile]
  simp only [List.append_assoc]

/-- A live server has the base URL of a generated one, or none where that is empty. -/
theorem baseUrl_of_content {service : Service}
    (h : content document tools service.settings.serviceUrl timeout = .ok c)
    (hdocument : service.documentUrl = document.serverUrl) :
    service.baseUrl = nonEmpty? (some c.baseUrl) := by
  rw [content] at h
  obtain ⟨functions, _, h⟩ := Outcome.bind_ok_iff.mp h
  cases h
  rw [Service.baseUrl, hdocument]
  dsimp only
  split
  · next hurl =>
    cases hservice : service.settings.serviceUrl with
    | nil => exact absurd hservice hurl
    | cons _ _ => rfl
  · cases hserver : document.serverUrl with
    | none => rfl
    | some url =>
      have hsame : isAbsolute url = Service.isAbsolute url := rfl
      rw [Option.filter_some, Option.filter_some, hsame]
      split
      · cases url with
        | nil => next habsolute => cases habsolute
        | cons _ _ => rfl
      · rfl

/-- A live server offers the tools of a catalog, and has the settings and the URL that it is given,
with which calls can be let through. -/
theorem build_ok_iff {server : Server} :
    Server.build settings (some document) tools = .ok server ↔
      0 ≤ settings.maxConcurrency ∧ Server.offersOf tools = .ok server.offers ∧
        server = ⟨settings.serviceName, Server.instructionsFor document.info.title,
          ⟨settings, ⟨.double settings.clientTimeout, true⟩, document.serverUrl⟩,
          server.offers⟩ := by
  rw [Server.build, Service.ofSettings]
  by_cases hnegative : settings.maxConcurrency < 0
  · rw [if_pos hnegative]
    exact iff_of_false nofun fun h ↦ absurd h.1 (Int.not_le.mpr hnegative)
  · rw [if_neg hnegative]
    cases hoffers : Server.offersOf tools with
    | error e => exact iff_of_false nofun fun h ↦ nomatch h.2.1
    | ok offers =>
      constructor
      · rintro ⟨⟩
        exact ⟨Int.not_lt.mp hnegative, rfl, rfl⟩
      · rintro ⟨-, hsame, heq⟩
        cases hsame
        rw [heq]
        rfl

/-- There is a live server exactly if its settings are of use and the tools have models. -/
theorem exists_build_iff :
    (∃ server, Server.build settings (some document) tools = .ok server) ↔
      0 ≤ settings.maxConcurrency ∧
        ∀ tool ∈ (index tools).values, ∃ model, InputModel.ofTool tool = .ok model := by
  rw [← Catalog.exists_offers_iff]
  constructor
  · rintro ⟨server, hserver⟩
    obtain ⟨hconcurrency, hoffers, -⟩ := build_ok_iff.mp hserver
    exact ⟨hconcurrency, server.offers, hoffers⟩
  · rintro ⟨hconcurrency, offers, hoffers⟩
    exact ⟨⟨_, _, _, offers⟩, build_ok_iff.mpr ⟨hconcurrency, hoffers, rfl⟩⟩

private theorem description_eq (tool : Tool) (args : Arguments) :
    Service.description tool args = SourceProgram.mocked tool args := by
  rw [Service.description, SourceProgram.mocked, Tool.operation]
  simp only [List.append_assoc]

/-- A service sends the request that is planned, and describes the call where no URL is known. -/
theorem call_spec (service : Service) (tool : Tool) (args : Arguments) (replies : Replies) :
    (service.call tool args replies).sent.map (·.request) =
        (service.baseUrl.map fun base ↦
          Request.plan tool args base service.settings.serviceAuthorization).bind
            Except.toOption ∧
      (service.baseUrl = none → (service.call tool args replies).outcome =
        (SourceProgram.mocked tool args).map fun text ↦ ⟨text, false⟩) := by
  rw [Service.call]
  cases hbase : service.baseUrl with
  | none => exact ⟨rfl, fun _ ↦ congrArg (Except.map _) (description_eq tool args)⟩
  | some base =>
    refine ⟨?_, nofun⟩
    dsimp only
    rw [Option.map_some, Option.bind_some]
    cases Request.plan tool args base service.settings.serviceAuthorization with
    | error e => cases e <;> rfl
    | ok request =>
      dsimp only
      split <;> rfl

/-- A call of a server that is read hands on the tool of its function, with what that collects. -/
theorem handed?_of_mem {baseUrl : Text} (h : content document tools baseUrl timeout = .ok c)
    {f : Function} (hf : f ∈ c.functions) {keywords args : Arguments}
    (hrun : (sourceOf f).run? keywords = some args) :
    SourceProgram.handed? ⟨c.baseUrl, index tools, c.functions.map sourceOf⟩ f.tool.id keywords =
      some (f.tool, args) := by
  obtain ⟨htools, -⟩ := functions_of_content h
  have hids : ((c.functions.map sourceOf).map (·.id)).Nodup := by
    have hall := Catalog.ids_nodup tools
    rw [← htools, List.map_map] at hall
    rw [List.map_map]
    exact hall
  have hfound : (c.functions.map sourceOf).find? (·.id = f.tool.id) = some (sourceOf f) :=
    find?_of_nodup hids (List.mem_map_of_mem hf)
  have htool : (index tools).get? f.tool.id = some f.tool := by
    have hdistinct : (index tools).Distinct := Fields.distinct_ofList _
    obtain ⟨g, hg, heq⟩ := List.mem_map.mp (htools ▸ List.mem_map_of_mem hf)
    rw [Fields.get?_eq_some_iff hdistinct, ← heq, ← (Catalog.mem_index hg).2]
    exact hg
  rw [SourceProgram.handed?, hfound]
  simp only [Option.bind_eq_bind, Option.bind_some, hrun, Option.pure_def]
  rw [sourceOf, htool, Option.bind_some]

/-- A live server hands on the tool of an offer, with what its model reads. -/
theorem call_of_mem {server : Server} (hoffers : Server.offersOf tools = .ok server.offers)
    {offer : Offer} (hoffer : offer ∈ server.offers) {payload : ApiTools.Argument}
    {args : Arguments} (hread : offer.model.arguments payload = .ok args) (replies : Replies) :
    server.call offer.tool.id payload replies =
      ⟨(server.service.call offer.tool args replies).outcome.mapError .request,
        (server.service.call offer.tool args replies).sent,
        (server.service.call offer.tool args replies).replies⟩ := by
  have hids : (server.offers.map (·.tool.id)).Nodup := by
    have hall := Catalog.ids_nodup tools
    rw [← (Catalog.offers_spec hoffers).1, List.map_map] at hall
    exact hall
  have hfound : server.offers.find? (·.tool.id = offer.tool.id) = some offer :=
    find?_of_nodup hids hoffer
  rw [Server.call, hfound]
  dsimp only
  rw [hread]

end Servers

/-- The source of a generated server of a document's catalog, read behind its first lines, has the
tools of the index, with a function for each of them, and the base URL of a live server that is made
of the document with the same settings. Such a server can be made exactly if all the tools have
models and calls can be counted, and offers the same tools. If the model of a tool has slots for all
that it is asked for and no ambiguity, then the live server, called with any well-typed values under
the names that callers are told to use, hands its service the tool and the arguments that the
function hands on when it is called with the same values for its parameters. It sends the request
that is planned then, and describes the call where no URL is known. -/
theorem emitted_agrees (document : Document) (settings : Settings) (timeout : Seconds) :
    ∃ c source program,
      content document (ofDocument document) settings.serviceUrl timeout = .ok c ∧
      serverFile c = serverHead c ++ source ∧ program? source = some program ∧
      program.tools = index (ofDocument document) ∧
      program.functions.map (·.id) = (index (ofDocument document)).names ∧
      ((∃ server, Server.build settings (some document) (ofDocument document) = .ok server) ↔
        0 ≤ settings.maxConcurrency ∧ ∀ tool ∈ (index (ofDocument document)).values,
          ∃ model, InputModel.ofTool tool = .ok model) ∧
      ∀ server, Server.build settings (some document) (ofDocument document) = .ok server →
        server.offers.map (·.tool) = (index (ofDocument document)).values ∧
        server.service.baseUrl = nonEmpty? (some program.serviceUrl) ∧
        ∀ offer ∈ server.offers, ∃ f ∈ program.functions, f.id = offer.tool.id ∧
          f.steps.map (·.key) =
            offer.tool.parameters.map (·.name) ++ InputModel.bodyNames offer.tool ∧
          (f.steps.map (·.value)).Nodup ∧
          (offer.model.IsWhole offer.tool → offer.model.Unambiguous →
            ∀ values, offer.tool.Takes values → ∀ payload keywords : Arguments,
              payload.Perm (assign (offer.model.slots.map Slot.exposed) values) →
              keywords.Perm (assign (f.steps.map (·.value)) values) →
              ∃ args, program.handed? offer.tool.id keywords = some (offer.tool, args) ∧
                ∀ replies,
                  let answer := server.service.call offer.tool args replies
                  server.call offer.tool.id (.object payload) replies =
                    ⟨answer.outcome.mapError .request, answer.sent, answer.replies⟩ ∧
                  answer.sent.map (·.request) =
                    (program.planned? offer.tool args settings.serviceAuthorization).bind
                      Except.toOption ∧
                  (server.service.baseUrl = none → answer.outcome =
                    (SourceProgram.mocked offer.tool args).map fun text ↦ ⟨text, false⟩)) := by
  obtain ⟨c, hc⟩ := exists_content_ofDocument document settings.serviceUrl timeout
  obtain ⟨htools, harguments⟩ := functions_of_content hc
  have hids : ((c.functions.map sourceOf).map (·.id)) = (index (ofDocument document)).names := by
    rw [← Catalog.ids_index, ← htools, List.map_map, List.map_map]
    rfl
  refine ⟨c, _, _, hc, serverFile_eq c, program?_source hc, rfl, hids, exists_build_iff,
    fun server hserver ↦ ?_⟩
  obtain ⟨-, hoffers, hmade⟩ := build_ok_iff.mp hserver
  have hsettings : server.service.settings = settings := by rw [hmade]
  have hdocument : server.service.documentUrl = document.serverUrl := by rw [hmade]
  obtain ⟨htold, hmodels⟩ := Catalog.offers_spec hoffers
  have hbase : server.service.baseUrl = nonEmpty? (some c.baseUrl) := by
    rw [← hsettings] at hc
    exact baseUrl_of_content hc hdocument
  refine ⟨htold, hbase, fun offer hoffer ↦ ?_⟩
  have htool : offer.tool ∈ (index (ofDocument document)).values :=
    htold ▸ List.mem_map_of_mem hoffer
  obtain ⟨f, hf, hfor⟩ := List.mem_map.mp (htools ▸ htool)
  obtain ⟨tool, model⟩ := offer
  subst hfor
  have hfirst := Catalog.requiredFirst (Catalog.mem_of_mem_values htool)
  obtain ⟨hnames, hnodup⟩ := collected_names hfirst (harguments f hf)
  refine ⟨sourceOf f, List.mem_map_of_mem hf, rfl, (keys_sourceOf f).trans hnames,
    values_sourceOf f ▸ hnodup, ?_⟩
  intro hwhole hapart values htakes payload keywords hpayload hkeywords
  rw [values_sourceOf] at hkeywords
  have hrun := run?_of_assigned hfirst (harguments f hf) htakes hkeywords
  have hread := InputModel.arguments_of_assigned hwhole.made hapart
    (InputModel.slots_take hwhole.all htakes) hpayload hwhole.hookless
  rw [InputModel.targets_eq hwhole.all] at hread
  refine ⟨_, handed?_of_mem hc hf hrun, fun replies ↦
    ⟨call_of_mem hoffers hoffer hread replies, ?_⟩⟩
  rw [← hsettings, SourceProgram.planned?, ← hbase]
  exact call_spec server.service f.tool _ replies

/-- The tool of the document with one operation. -/
def addNote : Tool where
  id := "postNotes_id"
  description := "POST /notes/{id}"
  path := "/notes/{id}"
  method := "POST"
  parameters := [⟨"id", "id", "path", true, "integer", none, none⟩,
    ⟨"body", "body", "query", false, "string", none, none⟩]
  hasBody := true
  bodyRequired := true
  bodyDescription := some "Request body"

/-- The model of its arguments. -/
def addNoteModel : InputModel where
  name := "postNotes_idInput"
  slots := [⟨"id", some "id", "id", .integer, true, none⟩,
    ⟨"body_2", none, "body", .string, false, none⟩,
    ⟨"body", none, "body", .body, true, some "Request body"⟩]

/-- Both servers send the body, the parameter named like it being without a value. -/
theorem emitted_agrees_notes : ∃ c source program server keywords args,
    content notes (ofDocument notes) [] (.whole 30) = .ok c ∧
      serverFile c = serverHead c ++ source ∧ program? source = some program ∧
      Server.build .standard (some notes) (ofDocument notes) = .ok server ∧
      addNoteModel.IsWhole addNote ∧ addNoteModel.Unambiguous ∧
      addNote.Takes [some (.int 7), none, some (.string "text")] ∧
      program.handed? addNote.id keywords = some (addNote, args) ∧
      ∀ replies, (server.call addNote.id
          (.object [("body", .string "text"), ("id", .int 7)]) replies).sent.map (·.request) =
        (program.planned? addNote args none).bind Except.toOption := by
  have hdocument : ofDocument notes = [addNote] := by decide +kernel
  have hserver : ∃ server, Server.build .standard (some notes) (ofDocument notes) = .ok server ∧
      server.offers = [⟨addNote, addNoteModel⟩] := by
    rw [hdocument]
    exact ⟨_, rfl, rfl⟩
  have hwhole : addNoteModel.IsWhole addNote := ⟨rfl, rfl, by decide +kernel⟩
  have hapart : addNoteModel.Unambiguous := by
    simp only [InputModel.Unambiguous]
    decide +kernel
  have hown : List.Forall₂ Parameter.Takes addNote.parameters [some (.int 7), none] :=
    .cons ⟨.integer, rfl, trivial⟩ (.cons ⟨.string, rfl, rfl⟩ .nil)
  have htakes : addNote.Takes [some (.int 7), none, some (.string "text")] :=
    @Tool.Takes.withBody addNote _ (some (.string "text")) rfl hown trivial
  obtain ⟨server, hbuilt, hoffers⟩ := hserver
  obtain ⟨c, source, program, hc, hfile, hread, -, -, -, hall⟩ :=
    emitted_agrees notes Settings.standard (.whole 30)
  obtain ⟨-, -, hagree⟩ := hall server hbuilt
  obtain ⟨f, -, -, -, -, hsame⟩ :=
    hagree ⟨addNote, addNoteModel⟩ (hoffers ▸ List.mem_singleton_self _)
  obtain ⟨args, hhanded, hcall⟩ := hsame hwhole hapart _ htakes
    [("body", .string "text"), ("id", .int 7)] _ (List.Perm.swap _ _ []) (List.Perm.refl _)
  refine ⟨c, source, program, server, _, args, hc, hfile, hread, hbuilt, hwhole, hapart, htakes,
    hhanded, fun replies ↦ ?_⟩
  obtain ⟨hcalled, hsent, -⟩ := hcall replies
  rw [hcalled]
  exact hsent

/-- A document with one operation, both of whose parameters have the name of a model's settings. -/
def configured : Document where
  version := "3.0.0"
  info := ⟨"Items", "1", none⟩
  servers := [⟨"https://h", []⟩]
  paths := [("/items/{model_config}", ⟨[], [("GET", {
    operationId := none
    summary := none
    description := none
    tags := []
    parameters := [⟨"model_config", "path", true, none, some ⟨.string "string", none, none⟩⟩,
      ⟨"model_config", "query", false, none, some ⟨.string "string", none, none⟩⟩]
    requestBody := none })]⟩)]
  components := []

/-- The tool of that operation. -/
def getItem : Tool where
  id := "getItems_model_config"
  description := "GET /items/{model_config}"
  path := "/items/{model_config}"
  method := "GET"
  parameters := [⟨"model_config", "model_config", "path", true, "string", none, none⟩,
    ⟨"model_config", "model_config", "query", false, "string", none, none⟩]

/-- The fields that its model is asked for. -/
def getItemFields : List Slot :=
  [⟨"model_config", some "model_config", "model_config", .string, true, none⟩,
    ⟨"model_config_2", none, "model_config", .string, false, none⟩]

/-- The model of its arguments, which lacks a slot for the first of them. -/
def getItemModel : InputModel := ⟨"getItems_model_configInput", getItemFields.tail⟩

/-- Of two parameters in the place of the settings the live server sends the first one, whose value
is not one of its slots, and the generated server the second. -/
theorem emitted_disagrees :
    let values : List (Option ApiTools.Argument) := [some (.string "a"), some (.string "b")]
    let collected : Arguments := [("model_config", .string "b")]
    ∃ c source program server,
      content configured (ofDocument configured) [] (.whole 30) = .ok c ∧
        serverFile c = serverHead c ++ source ∧ program? source = some program ∧
        Server.build .standard (some configured) (ofDocument configured) = .ok server ∧
        server.offers = [⟨getItem, getItemModel⟩] ∧ getItemModel.Unambiguous ∧
        InputModel.definitions getItem = .ok getItemFields ∧ getItem.Takes values ∧
        ∀ keywords, keywords = assign (getItemFields.map Slot.exposed) values →
          program.handed? getItem.id keywords = some (getItem, collected) ∧
          ((program.planned? getItem collected none).bind Except.toOption).map (·.url) =
            some ("https://h/items/b?model_config=b" : Text) ∧
          ∀ replies, (server.call getItem.id (.object keywords) replies).sent.map (·.request.url) =
            some ("https://h/items/a?model_config=a" : Text) := by
  have hdocument : ofDocument configured = [getItem] := by decide +kernel
  have hapart : getItemModel.Unambiguous := by
    simp only [InputModel.Unambiguous]
    decide +kernel
  have htakes : getItem.Takes [some (.string "a"), some (.string "b")] :=
    .parameters rfl (.cons ⟨.string, rfl, trivial⟩ (.cons ⟨.string, rfl, trivial⟩ .nil))
  have hcontent : ∃ c f, content configured [getItem] [] (.whole 30) = .ok c ∧
      c.baseUrl = "https://h" ∧ f ∈ c.functions ∧ f.tool = getItem ∧
      (sourceOf f).run? [("model_config", .string "a"), ("model_config_2", .string "b")] =
        some ([("model_config", .string "b")] : Arguments) := by
    refine ⟨_, _, rfl, by decide +kernel, List.mem_singleton_self _, rfl, ?_⟩
    decide +kernel
  have hserver : ∃ server, Server.build .standard (some configured) [getItem] = .ok server ∧
      server.offers = [⟨getItem, getItemModel⟩] ∧
      server.service.baseUrl = some ("https://h" : Text) ∧
      server.service.settings = .standard := ⟨_, rfl, rfl, rfl, rfl⟩
  have hread : getItemModel.arguments (.object (assign (getItemFields.map Slot.exposed)
      [some (.string "a"), some (.string "b")])) =
        .ok ([("model_config", .string "a")] : Arguments) := by decide +kernel
  rw [hdocument]
  obtain ⟨c, f, hc, hurl, hf, htool, hrun⟩ := hcontent
  obtain ⟨server, hbuilt, hoffered, hbase, hsettings⟩ := hserver
  have hhanded := handed?_of_mem hc hf hrun
  rw [htool] at hhanded
  refine ⟨c, _, _, server, hc, serverFile_eq c, program?_source hc, hbuilt, hoffered, hapart, rfl,
    htakes, ?_⟩
  rintro keywords rfl
  refine ⟨hhanded, ?_, fun replies ↦ ?_⟩
  · rw [SourceProgram.planned?]
    dsimp only
    rw [hurl]
    decide +kernel
  · have hoffer : ⟨getItem, getItemModel⟩ ∈ server.offers := hoffered ▸ List.mem_singleton_self _
    obtain ⟨hsent, -⟩ := call_spec server.service getItem [("model_config", .string "a")] replies
    have hurls := congrArg (Option.map Request.url) hsent
    rw [hbase, hsettings, Option.map_map] at hurls
    rw [call_of_mem (build_ok_iff.mp hbuilt).2.1 hoffer hread]
    refine hurls.trans ?_
    decide +kernel

end Emission

end ApiTools
