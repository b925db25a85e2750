import StageHost.Proofs.Text.Blank
import StageHost.Source
/-
  Which texts name a server, and with what host.
  `Outcome` lists what can become of a trimmed text, with what it says about the text. The part
  up to the first slash has to hold something, but the authority of a URI also ends at a question
  mark or a hash: a URI that goes on with one of these right after its scheme names a server
  without a host (`http_of_parse`).
-/
namespace StageHost.Source

/-! ## Authorities -/

/-- How the URI of a server begins, if it is asked with TLS or without. -/
def webScheme : Bool → List Char
  | true => "https://".toList
  | false => "http://".toList

/-- What follows the first `://` of a text. -/
def pastMark? : List Char → Option (List Char)
  | [] => none
  | c :: cs => (after? "://".toList (c :: cs)).or (pastMark? cs)

/-- The authority of a URI: what stands between its `://` and the slash, question mark or hash that
comes next, or the end. -/
def authority (uri : List Char) : List Char :=
  ((pastMark? uri).getD []).takeWhile (· ∉ ['/', '?', '#'])

/-- Whether the URI of a server goes on with its query or its fragment where its host should be. -/
def HostOmitted (tls : Bool) (uri : List Char) : Prop :=
  webScheme tls ++ ['?'] <+: uri ∨ webScheme tls ++ ['#'] <+: uri

instance (tls : Bool) (uri : List Char) : Decidable (HostOmitted tls uri) :=
  inferInstanceAs (Decidable (_ ∨ _))

theorem authority_web (tls : Bool) (rest : List Char) :
    authority (webScheme tls ++ rest) = rest.takeWhile (· ∉ ['/', '?', '#']) := by
  have hmark : pastMark? (webScheme tls ++ rest) = some rest := by cases tls <;> rfl
  rw [authority, hmark]
  rfl

/-- The text before the first slash is empty with the authority, unless a query or a fragment stands
in the authority's place. -/
theorem beforeSlash_eq_nil (tls : Bool) (rest : List Char) :
    beforeSlash rest = [] ↔
      authority (webScheme tls ++ rest) = [] ∧ ¬ HostOmitted tls (webScheme tls ++ rest) := by
  unfold HostOmitted
  rw [authority_web, List.prefix_append_right_inj, List.prefix_append_right_inj]
  cases rest with
  | nil => simp [beforeSlash]
  | cons c rest =>
    by_cases hslash : c = '/'
    · subst hslash
      simp [beforeSlash]
    · by_cases hc : c = '?' ∨ c = '#'
      · rcases hc with rfl | rfl <;> simp [beforeSlash]
      · rw [not_or] at hc
        simp [beforeSlash, hslash, hc.1, hc.2]

theorem authority_of_hostOmitted {tls : Bool} {uri : List Char} (h : HostOmitted tls uri) :
    authority uri = [] := by
  rcases h with ⟨rest, rfl⟩ | ⟨rest, rfl⟩ <;> rw [List.append_assoc, authority_web] <;> rfl

/-! ## Outcomes -/

theorem after?_eq_some {part cs rest : List Char} :
    after? part cs = some rest ↔ cs = part ++ rest := by
  induction part generalizing cs with
  | nil => rw [after?, Option.some_inj, List.nil_append]
  | cons p part ih =>
    cases cs with
    | nil => simp [after?]
    | cons c cs =>
      rw [after?, List.cons_append, List.cons.injEq]
      by_cases hpc : p = c
      · rw [if_pos hpc, ih, and_iff_right hpc.symm]
      · simp [hpc, Ne.symm hpc]

/-- All that can become of a trimmed text. -/
inductive Outcome (uri : String) : Except SourceError Source → Prop
  | web {tls : Bool} {rest : List Char} (h : uri.toList = webScheme tls ++ rest)
    (hr : beforeSlash rest ≠ []) : Outcome uri (.ok (.http uri tls))
  | hostless {tls : Bool} {rest : List Char} (h : uri.toList = webScheme tls ++ rest)
    (hr : beforeSlash rest = []) : Outcome uri (.error (.invalidUri uri))
  | file {path : List Char} (h : uri.toList = "file://".toList ++ path) (hp : path ≠ []) :
    Outcome uri (.ok (.file (String.ofList path)))
  | pathless (h : uri.toList = "file://".toList) : Outcome uri (.error (.invalidUri uri))
  | path (h : isPath uri.toList) : Outcome uri (.ok (.file uri))
  | foreign : Outcome uri (.error (.unsupportedScheme uri))

theorem parseTrimmed_web {uri : String} {tls : Bool} {rest : List Char}
    (h : uri.toList = webScheme tls ++ rest) :
    parseTrimmed uri =
      if (beforeSlash rest).isEmpty then .error (.invalidUri uri) else .ok (.http uri tls) := by
  unfold parseTrimmed
  rw [h]
  cases tls <;> rfl

theorem outcome (uri : String) : Outcome uri (parseTrimmed uri) := by
  by_cases hweb : ∃ tls, webScheme tls <+: uri.toList
  · obtain ⟨tls, rest, h⟩ := hweb
    rw [parseTrimmed_web h.symm]
    split
    · rename_i hr
      exact .hostless h.symm (List.isEmpty_iff.1 hr)
    · rename_i hr
      exact .web h.symm fun hnil => hr (List.isEmpty_iff.2 hnil)
  · have hno : ∀ tls, after? (webScheme tls) uri.toList = none := by
      intro tls
      rw [Option.eq_none_iff_forall_ne_some]
      intro rest hrest
      exact hweb ⟨tls, rest, (after?_eq_some.1 hrest).symm⟩
    unfold parseTrimmed
    dsimp only
    rw [show after? "https://".toList uri.toList = none from hno true,
      show after? "http://".toList uri.toList = none from hno false]
    dsimp only
    split
    · rename_i path hpath
      rw [after?_eq_some] at hpath
      split
      · rename_i hp
        rw [List.isEmpty_iff.1 hp, List.append_nil] at hpath
        exact .pathless hpath
      · rename_i hp
        exact .file hpath fun hnil => hp (List.isEmpty_iff.2 hnil)
    · split
      · exact .foreign
      · split
        · rename_i hp
          exact .path hp
        · exact .foreign

theorem Outcome.of_http {uri url : String} {tls : Bool}
    (h : Outcome uri (.ok (.http url tls))) : url = uri ∧ webScheme tls <+: uri.toList := by
  cases h with
  | web h hr => exact ⟨rfl, _, h.symm⟩

theorem Outcome.path_ne_empty {uri path : String} (h : Outcome uri (.ok (.file path))) :
    path ≠ "" := by
  cases h with
  | file h hp =>
    intro hempty
    rw [← String.toList_inj, String.toList_ofList] at hempty
    exact hp hempty
  | path h =>
    rintro rfl
    cases h

/-! ## Texts as they are given -/

theorem parse_outcome (u : String) : Outcome (trim u) (parse u) := outcome (trim u)

/-- The outcome of a URI that begins as that of a server does. -/
theorem parse_web {u : String} {tls : Bool} (h : webScheme tls <+: (trim u).toList) :
    parse u = if authority (trim u).toList = [] ∧ ¬ HostOmitted tls (trim u).toList
      then .error (.invalidUri (trim u)) else .ok (.http (trim u) tls) := by
  obtain ⟨rest, hrest⟩ := h
  rw [parse, parseTrimmed_web hrest.symm, ← hrest]
  refine if_congr ?_ rfl rfl
  rw [List.isEmpty_iff]
  exact beforeSlash_eq_nil tls rest

/-- A text names a server exactly if its URI begins accordingly and has an authority or omits it. -/
theorem parse_eq_http {u url : String} {tls : Bool} :
    parse u = .ok (.http url tls) ↔
      url = trim u ∧ webScheme tls <+: url.toList ∧
        (authority url.toList ≠ [] ∨ HostOmitted tls url.toList) := by
  constructor
  · intro h
    have hout := parse_outcome u
    rw [h] at hout
    obtain ⟨rfl, hscheme⟩ := hout.of_http
    refine ⟨rfl, hscheme, ?_⟩
    rw [parse_web hscheme] at h
    split at h
    · cases h
    · rename_i hhost
      exact (not_and_or.1 hhost).imp_right not_not.1
  · rintro ⟨rfl, hscheme, hhost⟩
    rw [parse_web hscheme, if_neg]
    rintro ⟨hnone, homitted⟩
    exact hhost.elim (fun hsome => hsome hnone) homitted

/-- Which texts name a server. The URI is the trimmed text, which begins as that of a server does
and has an authority, or goes on at once with a query or a fragment; only then the server is without
a host, and any other URI without an authority is invalid. The URI of a server names the same server
again. White space around a text never matters, and a file always has a path. -/
theorem http_of_parse (u : String) :
    (∀ url tls, parse u = .ok (.http url tls) ↔
      url = trim u ∧ webScheme tls <+: url.toList ∧
        (authority url.toList ≠ [] ∨ HostOmitted tls url.toList)) ∧
    (∀ url tls, parse u = .ok (.http url tls) →
      (authority url.toList = [] ↔ HostOmitted tls url.toList) ∧
        parse url = .ok (.http url tls)) ∧
    (∀ tls, webScheme tls <+: (trim u).toList →
      (parse u = .error (.invalidUri (trim u)) ↔
        authority (trim u).toList = [] ∧ ¬ HostOmitted tls (trim u).toList)) ∧
    (∀ before after, Blank before → Blank after → parse (before ++ u ++ after) = parse u) ∧
    ∀ path, parse u = .ok (.file path) → path ≠ "" := by
  refine ⟨fun url tls => parse_eq_http, fun url tls h => ?_, fun tls hscheme => ?_,
    fun before after hb ha => ?_, fun path h => ?_⟩
  · obtain ⟨rfl, hscheme, hhost⟩ := parse_eq_http.1 h
    refine ⟨⟨fun hnone => hhost.resolve_left (not_not.2 hnone), authority_of_hostOmitted⟩, ?_⟩
    exact parse_eq_http.2 ⟨(trim_trim u).symm, hscheme, hhost⟩
  · rw [parse_web hscheme]
    constructor
    · intro h
      split at h
      · assumption
      · cases h
    · exact fun hnone => if_pos hnone
  · rw [parse, trim_between_blanks hb ha]
    rfl
  · have hout := parse_outcome u
    rw [h] at hout
    exact hout.path_ne_empty

/-- A question mark where the host should be is taken for one, a slash is not, and space around them
does not matter. -/
theorem host_omitted_before_query :
    (parse " https://?x" = .ok (.http "https://?x" true) ∧ authority "https://?x".toList = [] ∧
      parse "https://?x" = .ok (.http "https://?x" true)) ∧
    parse "https:///x" = .error (.invalidUri "https:///x") ∧
    parse (" " ++ "file:///x" ++ "\n") = .ok (.file "/x") ∧ "/x" ≠ "" := by
  have hquery : parse " https://?x" = .ok (.http "https://?x" true) := by decide
  have hfile : parse "file:///x" = .ok (.file "/x") := by decide
  obtain ⟨hnone, hagain⟩ := (http_of_parse " https://?x").2.1 _ _ hquery
  obtain ⟨-, -, hinvalid, -, -⟩ := http_of_parse "https:///x"
  obtain ⟨-, -, -, hblank, hpath⟩ := http_of_parse "file:///x"
  refine ⟨⟨hquery, hnone.2 (by decide), hagain⟩, ?_, ?_, hpath _ hfile⟩
  · exact (hinvalid true (by decide)).2 (by decide)
  · rw [hblank " " "\n" (by decide) (by decide), hfile]

end StageHost.Source
