import Mathlib.Data.List.Induction
import ApiTools.Document.Basic
import ApiTools.Proofs.Fields
import ApiTools.Proofs.Placeholder

/-!
# URLs of servers

The placeholders in the URL of a server are replaced one after the other, which rewrites the whole
URL each time. As long as neither the names nor the texts put in have braces, and every brace that
opens in the URL belongs to a placeholder, that is the URL filled at once (`serverUrl_eq_filled`).
-/

namespace ApiTools

namespace Document

open Placeholder

namespace Server

/-- The text that the placeholder of a name stands for, if one is declared under it. -/
def textOf? (declared : Fields (Fields Json)) (name : Text) : Option Text :=
  (declared.get? name).map defaultText

variable {declared before order : Fields (Fields Json)} {name url : Text} {own : Fields Json}

private theorem textOf?_eq_none (h : name ∉ declared.names) : textOf? declared name = none := by
  rw [textOf?, (Fields.get?_eq_none_iff _ _).mpr h, Option.map_none]

/-- One placeholder more under a name of its own. -/
theorem textOf?_concat (hfree : name ∉ before.names) :
    textOf? (before ++ [(name, own)]) = extend (textOf? before) name (defaultText own) := by
  funext wanted
  rw [textOf?, Fields.get?_append, Fields.get?_cons, Fields.get?_nil, extend]
  by_cases hname : wanted = name
  · subst hname
    rw [(Fields.get?_eq_none_iff _ _).mpr hfree, if_pos rfl, if_pos rfl]
    rfl
  · rw [if_neg (Ne.symm hname), if_neg hname, Option.or_none, textOf?]

private theorem filledUrl_concat (url : Text) (before : Fields (Fields Json)) (name : Text)
    (own : Fields Json) :
    filledUrl ⟨url, before ++ [(name, own)]⟩ =
      (filledUrl ⟨url, before⟩).replace (Request.placeholder name) (defaultText own) := by
  rw [filledUrl, List.foldl_append]
  rfl

/-- What a name's placeholder stands for is the text of a declared one. -/
theorem exists_of_textOf? {text : Text} (h : textOf? declared name = some text) :
    ∃ own ∈ declared.values, defaultText own = text := by
  obtain ⟨own, hown, rfl⟩ := Option.map_eq_some_iff.mp h
  exact ⟨own, List.mem_map.mpr ⟨_, Fields.mem_of_get? hown, rfl⟩, rfl⟩

/-- Placeholders replaced one after the other are filled at once. -/
theorem filledUrl_eq_filled (hdistinct : declared.Distinct) (hflat : IsFlat url)
    (hnames : ∀ name ∈ declared.names, IsPlain name)
    (htexts : ∀ own ∈ declared.values, IsPlain (defaultText own)) :
    filledUrl ⟨url, declared⟩ = filled (textOf? declared) url := by
  -- The texts put in so far have brought in no placeholder of the next name.
  induction declared using List.reverseRecOn with
  | nil => exact (filled_eq_self _ (fun _ _ h ↦ by cases h) url).symm
  | append_singleton before f ih =>
    obtain ⟨name, own⟩ := f
    rw [Fields.names_append, List.forall_mem_append] at hnames
    rw [Fields.values, List.map_append, List.forall_mem_append] at htexts
    rw [Fields.Distinct, Fields.names_append, List.nodup_append] at hdistinct
    have hfree : name ∉ Fields.names before :=
      fun hmem ↦ hdistinct.2.2 name hmem name List.mem_cons_self rfl
    have hnew : occurrences name (filled (textOf? before) url) = occurrences name url := by
      refine occurrences_filled _ (textOf?_eq_none hfree) (fun other text htext hbrace ↦ ?_) hflat
      obtain ⟨own, hown, rfl⟩ := exists_of_textOf? htext
      exact (htexts.1 own hown _ hbrace).1 rfl
    rw [filledUrl_concat, ih hdistinct.1 hnames.1 htexts.1,
      replace_eq_filled (hnames.2 name List.mem_cons_self), textOf?_concat hfree]
    exact (filled_only_filled_iff _ _ _ (textOf?_eq_none hfree)
      (hnames.2 name List.mem_cons_self) url).mpr (.inr hnew)

private theorem textOf?_perm (hperm : order.Perm declared) (hdistinct : declared.Distinct) :
    textOf? order = textOf? declared := by
  funext name
  rw [textOf?, Fields.get?_perm hperm hdistinct, textOf?]

end Server

/-- The URL of a document is that of its first server with the placeholders of all declared names
filled at once, each with the default declared for it and with nothing if none is, and everything
else as it is. So it does not depend on the order in which the placeholders are declared. -/
theorem serverUrl_eq_filled {document : Document} {server : Server} {others : List Server}
    (hservers : document.servers = server :: others) (hdistinct : server.placeholders.Distinct)
    (hflat : IsFlat server.url) (hnames : ∀ name ∈ server.placeholders.names, IsPlain name)
    (htexts : ∀ own ∈ server.placeholders.values, IsPlain (Server.defaultText own)) :
    document.serverUrl = some (filled (Server.textOf? server.placeholders) server.url) ∧
    ∀ order : Fields (Fields Json), order.Perm server.placeholders →
      serverUrl { document with servers := { server with placeholders := order } :: others } =
        document.serverUrl := by
  have hurl : document.serverUrl =
      some (filled (Server.textOf? server.placeholders) server.url) := by
    rw [serverUrl, hservers]
    exact congrArg some (Server.filledUrl_eq_filled hdistinct hflat hnames htexts)
  refine ⟨hurl, fun order hperm ↦ ?_⟩
  rw [hurl, ← Server.textOf?_perm hperm hdistinct]
  refine congrArg some (Server.filledUrl_eq_filled ?_ hflat ?_ ?_)
  · exact (hperm.map _).nodup_iff.mpr hdistinct
  · exact fun name hname ↦ hnames name ((hperm.map _).mem_iff.mp hname)
  · exact fun own hown ↦ htexts own ((hperm.map _).mem_iff.mp hown)

/-- A server that has a placeholder with a default, one without and one that is not declared. -/
private def regionalServer : Server where
  url := "https://\x7bregion\x7d.h/\x7bstage\x7d\x7bregion\x7d/\x7bid\x7d"
  placeholders := [("stage", []), ("region", [("default", .string "eu")])]

private def regional : Document := ⟨"3.0.0", ⟨[], [], none⟩, [regionalServer], [], []⟩

/-- A URL with a placeholder that has a default, one without and one that is not declared is filled
alike in both orders of the variables. -/
theorem serverUrl_eq_filled_regional :
    regional.servers = [regionalServer] ∧ regionalServer.placeholders.Distinct ∧
    IsFlat regionalServer.url ∧ (∀ name ∈ regionalServer.placeholders.names, IsPlain name) ∧
    (∀ own ∈ regionalServer.placeholders.values, IsPlain (Server.defaultText own)) ∧
    regional.serverUrl =
      some (filled (Server.textOf? regionalServer.placeholders) regionalServer.url) ∧
    serverUrl { regional with
      servers := [{ regionalServer with placeholders := regionalServer.placeholders.reverse }] } =
        regional.serverUrl ∧
    regional.serverUrl = some "https://eu.h/eu/\x7bid\x7d" := by
  have hservers : regional.servers = [regionalServer] := rfl
  obtain ⟨hdistinct, hflat, hnames, htexts, hfilled⟩ :
      regionalServer.placeholders.Distinct ∧ IsFlat regionalServer.url ∧
      (∀ name ∈ regionalServer.placeholders.names, IsPlain name) ∧
      (∀ own ∈ regionalServer.placeholders.values, IsPlain (Server.defaultText own)) ∧
      regional.serverUrl = some "https://eu.h/eu/\x7bid\x7d" := by decide
  obtain ⟨hurl, horder⟩ := serverUrl_eq_filled hservers hdistinct hflat hnames htexts
  exact ⟨hservers, hdistinct, hflat, hnames, htexts, hurl, horder _ (List.reverse_perm _), hfilled⟩

end Document

end ApiTools
