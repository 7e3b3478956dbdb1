import Countersign.Proofs.Config.Writing
import Countersign.Proofs.Toml.Coherence
import Countersign.Proofs.Toml.Spelling

/-!
# Settings that are partly written

A file that sets some of the keys is loaded as the defaults, overlaid with what it sets. It may spread the
keys over headers, dotted keys and tables written as values, in any order and among names that no setting
has. What the document holds at a key follows from its statements, so that each field of a section is either
read from what was put there or left to its default, whatever the other fields and sections say.
-/

set_option autoImplicit false

namespace Countersign

open Toml

namespace Settings

section Overlaying

variable {c : Settings} {given : String → String → Bool} {part name : String}

def setting? (s : Settings) (part name : String) : Option Setting :=
  ((s.sections.map fun p => (p.name, p.settings)).lookup part).bind (List.lookup name)

def overlayNode (given : String → Bool) (n d : NodeSettings) : NodeSettings where
  access := {
    host := if given "host" then n.access.host else d.access.host
    user := if given "user" then n.access.user else d.access.user
    pass := if given "pass" then n.access.pass else d.access.pass }
  network := if given "network" then n.network else d.network

def overlaySigner (given : String → Bool) (s d : SignerSettings) : SignerSettings where
  node := overlayNode given s.node d.node
  type := if given "signer-type" then s.type else d.type

def overlayServer (given : String → Bool) (s d : ServerSettings) : ServerSettings where
  host := if given "host" then s.host else d.host
  port := if given "port" then s.port else d.port
  requestTimeout := if given "request-timeout" then s.requestTimeout else d.requestTimeout
  maxContentLength := if given "max-content-length" then s.maxContentLength else d.maxContentLength
  hmacKey := if given "hmac-key" then s.hmacKey else d.hmacKey

def overlayMetrics (given : String → Bool) (s d : MetricsSettings) : MetricsSettings where
  host := if given "host" then s.host else d.host
  port := if given "port" then s.port else d.port

/-- The defaults, with the given keys as they are in some settings. -/
def overlay (c : Settings) (given : String → String → Bool) : Settings where
  node := overlayNode (given "btc-config") c.node defaultNode
  signer := overlaySigner (given "btc-signer-config") c.signer defaultSigner
  server := overlayServer (given "server-config") c.server defaultServer
  metrics := overlayMetrics (given "metrics") c.metrics defaultMetrics

theorem setting?_eq_none (s : Settings) (unknown : ∀ p ∈ layout, p.1 = part → name ∉ p.2) :
    s.setting? part name = none := by
  cases stands : (s.sections.map fun p => (p.name, p.settings)).lookup part with
  | none => rw [setting?, stands, Option.bind_none]
  | some settings =>
    obtain ⟨before, after, all, -⟩ := List.lookup_eq_some_iff.mp stands
    have present : (part, settings) ∈ s.sections.map fun p => (p.name, p.settings) := by simp [all]
    obtain ⟨p, hp, same⟩ := List.mem_map.mp present
    obtain ⟨rfl, rfl⟩ := Prod.mk.inj same
    have placed : (p.name, p.settings.map Prod.fst) ∈ layout := sections_layout s ▸ List.mem_map_of_mem hp
    rw [setting?, stands, Option.bind_some]
    refine List.lookup_eq_none_iff.mpr fun q hq => bne_iff_ne.mpr ?_
    rintro rfl
    exact unknown _ placed rfl (List.mem_map_of_mem hq)

theorem setting?_overlay (c : Settings) (given : String → String → Bool) (part name : String) :
    (c.overlay given).setting? part name =
      if given part name then c.setting? part name else default.setting? part name := by
  have known : ∀ p ∈ layout, ∀ name ∈ p.2, (c.overlay given).setting? p.1 name =
      if given p.1 name then c.setting? p.1 name else default.setting? p.1 name := by
    simp only [layout, nodeFields, List.cons_append, List.nil_append, List.forall_mem_cons, List.not_mem_nil,
      false_implies, implies_true, and_true]
    and_intros
    all_goals
      split <;> rename_i h <;>
        simp [setting?, sections, nodeEntries, overlay, overlayNode, overlaySigner, overlayServer, overlayMetrics,
          default, List.lookup_cons, h]
  by_cases h : ∃ p ∈ layout, p.1 = part ∧ name ∈ p.2
  · obtain ⟨p, hp, rfl, hn⟩ := h
    exact known p hp name hn
  · have unknown : ∀ p ∈ layout, p.1 = part → name ∉ p.2 := fun p hp same hn => h ⟨p, hp, same, hn⟩
    rw [setting?_eq_none _ unknown, setting?_eq_none _ unknown, setting?_eq_none _ unknown, ite_self]

end Overlaying

section Reading

variable {α : Type} {t entries : Table} {name part : String} {given : String → Bool} {v : Value} {a d : α}
  {read : Value → Option α} {settings : List (String × Setting)}

/-- A table has the given ones of some settings, and none of the others. -/
def Holds (given : String → Bool) (settings : List (String × Setting)) (t : Table) : Prop :=
  ∀ p ∈ settings, t.lookup p.1 = if given p.1 then some p.2.value else none

theorem field?_overlaid (holds : t.lookup name = if given name then some v else none) (reads : read v = some a) :
    t.field? name d read = some (if given name then a else d) := by
  unfold Table.field?
  rw [holds]
  split_ifs
  · exact reads
  · rfl

theorem nodeOf?_overlaid {n d : NodeSettings} (holds : Holds given (nodeEntries n) t) :
    nodeOf? t d = some (overlayNode given n d) := by
  simp only [Holds, nodeEntries, List.forall_mem_cons] at holds
  obtain ⟨host, user, pass, network, -⟩ := holds
  rw [nodeOf?, field?_overlaid host (string?_text _), field?_overlaid user (string?_text _),
    field?_overlaid pass (string?_text _), field?_overlaid network (string?_text _)]
  rfl

theorem node?_overlaid {n : NodeSettings} {form : TableForm} (holds : Holds given (nodeEntries n) t) :
    node? (.table form t) = some (overlayNode given n defaultNode) :=
  nodeOf?_overlaid holds

theorem signer?_overlaid {s : SignerSettings} {form : TableForm}
    (holds : Holds given (nodeEntries s.node ++ [("signer-type", .text s.type.text)]) t) :
    signer? (.table form t) = some (overlaySigner given s defaultSigner) := by
  obtain ⟨node, type⟩ := List.forall_mem_append.mp holds
  have typed : signerType? (Setting.text s.type.text).value = some s.type := ofText?_text s.type
  have type := field?_overlaid (d := defaultSigner.type) (type _ List.mem_cons_self) typed
  simp [signer?, Value.record?, nodeOf?_overlaid node, type, overlaySigner]

theorem server?_overlaid {s : ServerSettings} {form : TableForm}
    (holds : Holds given [("host", .text s.host), ("port", .number s.port.toNat),
      ("request-timeout", .number s.requestTimeout.toNat),
      ("max-content-length", .number s.maxContentLength.toNat), ("hmac-key", .text s.hmacKey)] t) :
    server? (.table form t) = some (overlayServer given s defaultServer) := by
  simp only [Holds, List.forall_mem_cons] at holds
  obtain ⟨host, port, timeout, length, key, -⟩ := holds
  simp [server?, Value.record?, overlayServer, field?_overlaid host (string?_text _),
    field?_overlaid port (u16?_toNat _), field?_overlaid timeout (u64?_toNat _),
    field?_overlaid length (u32?_toNat _), field?_overlaid key (string?_text _)]

theorem metrics?_overlaid {s : MetricsSettings} {form : TableForm}
    (holds : Holds given [("host", .text s.host), ("port", .number s.port.toNat)] t) :
    metrics? (.table form t) = some (overlayMetrics given s defaultMetrics) := by
  simp only [Holds, List.forall_mem_cons] at holds
  obtain ⟨host, port, -⟩ := holds
  simp [metrics?, Value.record?, overlayMetrics, field?_overlaid host (string?_text _),
    field?_overlaid port (u32?_toNat _)]

theorem field?_section (tabular : t.TabularAt [part])
    (holds : ∀ p ∈ settings, t.at? [part, p.1] = if given p.1 then some p.2.value else none)
    (reads : ∀ form entries, Holds given settings entries → read (.table form entries) = some a)
    (empty : read (.table .implied []) = some d) : t.field? part d read = some a := by
  unfold Table.field?
  cases stands : t.lookup part with
  | none =>
    have none' : Holds given settings [] := fun p hp => by
      rw [← holds p hp, Table.at?_cons, stands]
      rfl
    exact empty.symm.trans (reads .implied [] none')
  | some v =>
    obtain ⟨form, entries, rfl⟩ := tabular v (Table.at?_singleton.trans stands)
    refine reads form entries fun p hp => ?_
    rw [← holds p hp, Table.at?_cons, stands]
    exact Table.at?_singleton.symm

end Reading

section Documents

variable {c : Settings} {given : String → String → Bool} {ss : List Statement} {root : Table} {text : String}

/-- The statements set the given keys as they are in some settings and none of the others, each in the table
of its section. What else they say is left open. -/
structure Gives (c : Settings) (given : String → String → Bool) (ss : List Statement) : Prop where
  settings : ∀ part ∈ c.sections, ∀ p ∈ part.settings,
    if given part.name p.1 then Puts [] ss [part.name, p.1] p.2.value else ¬Mentions [] ss [part.name, p.1]
  tables : ∀ part ∈ c.sections, Tabular [] ss [part.name]

theorem isPlain_value (s : Setting) : s.value.IsPlain := by
  cases s <;> exact ⟨nofun, nofun⟩

theorem Gives.holds (gives : Gives c given ss) (document : ofStatements? ss = some root) :
    ∀ part ∈ c.sections, ∀ p ∈ part.settings,
      root.at? [part.name, p.1] = if given part.name p.1 then some p.2.value else none := by
  intro part hpart p hp
  have key := gives.settings part hpart p hp
  have single : Single ss [part.name, p.1] := by
    rintro way ⟨rest, split⟩ apart named
    match way, named, split, apart with
    | [_], _, split, _ =>
      obtain rfl := (List.cons.inj split).1
      exact (gives.tables part hpart).1
    | [_, _], _, split, apart =>
      simp only [List.cons_append, List.nil_append, List.cons.injEq] at split
      exact absurd (by rw [split.1, split.2.1]) apart
  split_ifs at key ⊢
  · exact at?_eq_some document (List.cons_ne_nil _ _) (isPlain_value _) key single
  · exact at?_eq_none document (List.cons_ne_nil _ _) key

theorem Gives.ofTable? (gives : Gives c given ss) (document : ofStatements? ss = some root) :
    ofTable? root = some (c.overlay given) := by
  have holds := gives.holds document
  have tabular : ∀ part ∈ c.sections, root.TabularAt [part.name] := fun part hpart =>
    tabularAt_of_tabular document (List.cons_ne_nil _ _) (gives.tables part hpart)
  obtain ⟨node, holds⟩ := List.forall_mem_cons.mp holds
  obtain ⟨signer, holds⟩ := List.forall_mem_cons.mp holds
  obtain ⟨server, holds⟩ := List.forall_mem_cons.mp holds
  obtain ⟨metrics, -⟩ := List.forall_mem_cons.mp holds
  simp only [sections, List.forall_mem_cons] at tabular
  obtain ⟨node', signer', server', metrics', -⟩ := tabular
  rw [Settings.ofTable?, field?_section node' node (fun _ _ => node?_overlaid) rfl,
    field?_section signer' signer (fun _ _ => signer?_overlaid) rfl,
    field?_section server' server (fun _ _ => server?_overlaid) rfl,
    field?_section metrics' metrics (fun _ _ => metrics?_overlaid) rfl]
  rfl

theorem Gives.parse (gives : Gives c given ss) (document : IsDocument text ss) :
    parse text = .ok (c.overlay given) := by
  obtain ⟨read, root, made⟩ := document
  have table : Toml.parse? text = some root := by rw [Toml.parse?, parseChars?, read, Option.bind_some, made]
  rw [Settings.parse, table, Option.bind_some, gives.ofTable? made]

end Documents

theorem outcome_loadPlan {s : Settings} {path text : String} {answer : (q : System.Question) → System.Answer q}
    (holds : answer (SystemCall.readFile path) = Except.ok (Utf8.encode text)) (loaded : parse text = .ok s) :
    (Daemon.loadPlan path).run.outcome answer = s.check.mapError DaemonError.loadConfig := by
  change Dialogue.outcome answer (Dialogue.bind (Daemon.readText path _).run _) = _
  rw [Dialogue.outcome_bind, outcome_readText holds]
  change (parse text >>= check).mapError DaemonError.loadConfig = _
  rw [loaded]
  rfl

/-- A document that gives some of the keys is loaded as settings that have those keys as given and all others
by default. Whatever is written by the rules, within the depth that the reader allows and without a clash,
is such a document. -/
theorem partial_file_overlays (c : Settings) (given : String → String → Bool) :
    (∀ text ss, IsDocument text ss → Gives c given ss → ∃ s, parse text = .ok s ∧
      (∀ part name, s.setting? part name =
        if given part name then c.setting? part name else default.setting? part name) ∧
      ∀ (path : String) (answer : (q : System.Question) → System.Answer q),
        answer (SystemCall.readFile path) = Except.ok (Utf8.encode text) →
        (Daemon.loadPlan path).run.outcome answer = s.check.mapError DaemonError.loadConfig) ∧
      ∀ text ss, Written maxDepth text ss → Coherent [] [] ss → IsDocument text ss := by
  refine ⟨fun text ss document gives => ?_, fun text ss written coherent => written.isDocument coherent⟩
  have loaded := gives.parse document
  exact ⟨c.overlay given, loaded, setting?_overlay c given, fun path answer holds => outcome_loadPlan holds loaded⟩

section Checks

def valueSetting? : Value → Option Setting
  | .string s => some (.text s)
  | .integer (.ofNat n) => some (.number n)
  | _ => none

theorem valueSetting?_eq_some {v : Value} {s : Setting} : valueSetting? v = some s ↔ v = s.value := by
  constructor
  · intro h
    unfold valueSetting? at h
    split at h
    · obtain rfl := Option.some.inj h
      rfl
    · obtain rfl := Option.some.inj h
      rfl
    · nomatch h
  · rintro rfl
    cases s <;> rfl

instance (ss : List Statement) (address : Path) (s : Setting) : Decidable (Puts [] ss address s.value) :=
  decidable_of_iff (∃ v ∈ held [] ss address, valueSetting? v = some s) (by
    simp only [← mem_held, valueSetting?_eq_some, exists_eq_right])

instance (c : Settings) (given : String → String → Bool) (ss : List Statement) : Decidable (Gives c given ss) :=
  decidable_of_iff ((∀ part ∈ c.sections, ∀ p ∈ part.settings,
      if given part.name p.1 then Puts [] ss [part.name, p.1] p.2.value else ¬Mentions [] ss [part.name, p.1]) ∧
    ∀ part ∈ c.sections, Tabular [] ss [part.name])
    ⟨fun ⟨settings, tables⟩ => ⟨settings, tables⟩, fun ⟨settings, tables⟩ => ⟨settings, tables⟩⟩

end Checks

namespace Sample

def wanted : Settings := { awkward with metrics := { host := "0.0.0.0", port := 8080 } }

def chosen (part name : String) : Bool :=
  [("btc-signer-config", "signer-type"), ("metrics", "port"), ("server-config", "host"),
    ("server-config", "max-content-length")].contains (part, name)

def statements : List Statement :=
  [.entry ["btc-signer-config", "signer-type"] (.string "privkey"),
    .entry ["metrics"] (.table .closed [("port", .integer 8080), ("colour", .string "red")]),
    .table ["server-config"], .entry ["max-content-length"] (.integer 4294967295), .entry ["host"] (.string "::1"),
    .element ["notes"], .entry ["host"] (.string "here"), .element ["notes"]]

def lines : List String :=
  ["btc-signer-config . \"signer-type\" = \"privkey\" # the wallet's own key",
    "",
    "metrics = \x7b port = 8080, colour = \"red\" \x7d",
    "[ server-config ]",
    "max-content-length=4294967295",
    "host = \"::1\"",
    "[[notes]]",
    "host = \"here\"",
    "[[notes]]"]

def text : String := String.ofList (lines.flatMap fun line => line.toList ++ ['\n'])

theorem gives_statements : Gives wanted chosen statements := by decide +kernel

theorem coherent_statements : Coherent [] [] statements := by decide +kernel

theorem written_text : Written maxDepth text statements := by
  have space : Blanks [' '] := by decide
  have none' : Blanks [] := by decide
  have ends : Tail [] := .mk none' .none
  have note : Tail ([' '] ++ '#' :: " the wallet's own key".toList) :=
    .mk space (.note (List.all_eq_true.mp (by decide +kernel)))
  have quoted (s : String) {d : ℕ} : Spells maxDepth d (Setting.text s).chars (.value (.string s)) :=
    Spells.setting trivial
  have number (n : ℕ) {d : ℕ} (h : n < integerBound) :
      Spells maxDepth d (Setting.number n).chars (.value (.integer n)) := Spells.setting h
  have key (name : String) (bare : Bare name) {b b' : List Char} (blanks : Blanks b) (blanks' : Blanks b') :
      KeyPath (b ++ name.toList ++ b') [name] := .single blanks (.bare bare) blanks'
  have type : Line maxDepth _ (some (.entry ["btc-signer-config", "signer-type"] (.string "privkey"))) :=
    .entry (.dotted none' (.bare (by decide +kernel)) space (.single space (.escaped _) space)) (by decide) space
      (quoted _) note
  have port := key "port" (by decide +kernel) space space
  have colour := key "colour" (by decide +kernel) space space
  have metrics : Line maxDepth _
      (some (.entry ["metrics"] (.table .closed [("port", .integer 8080), ("colour", .string "red")]))) :=
    .entry (key _ (by decide +kernel) none' space) (by decide) space
      (.table (.entry port (by decide) space (number 8080 (by decide)) none' rfl
        (.lastEntry colour (by decide) space (quoted "red") space rfl))) ends
  have server : Line maxDepth _ (some (.table ["server-config"])) :=
    .table none' (key _ (by decide +kernel) space space) (by decide) ends
  have length : Line maxDepth _ (some (.entry ["max-content-length"] (.integer 4294967295))) :=
    .entry (key _ (by decide +kernel) none' none') (by decide) none' (number 4294967295 (by decide)) ends
  have host (s : String) : Line maxDepth _ (some (.entry ["host"] (.string s))) :=
    .entry (key _ (by decide +kernel) none' space) (by decide) space (quoted s) ends
  have notes : Line maxDepth _ (some (.element ["notes"])) :=
    .element none' (key _ (by decide +kernel) none' none') (by decide) ends
  have all : Lines maxDepth _ statements := .cons type (.cons (.silent ends) (.cons metrics (.cons server
    (.cons length (.cons (host "::1") (.cons notes (.cons (host "here") (.cons notes (.last (.silent ends))))))))))
  rw [Written, text, String.toList_ofList]
  convert all using 1
  decide +kernel

end Sample

theorem sample_file_overlays : ∃ s, parse Sample.text = .ok s ∧
    s.setting? "btc-signer-config" "signer-type" = some (.text "privkey") ∧
    s.setting? "btc-signer-config" "user" = some (.text "user") ∧
    s.setting? "metrics" "port" = some (.number 8080) ∧
    (Daemon.loadPlan "signer.toml").run.outcome (Sample.holding (Utf8.encode Sample.text)) =
      s.check.mapError DaemonError.loadConfig := by
  obtain ⟨overlays, documents⟩ := partial_file_overlays Sample.wanted Sample.chosen
  have document := documents _ _ Sample.written_text Sample.coherent_statements
  obtain ⟨s, loaded, settings, started⟩ := overlays _ _ document Sample.gives_statements
  exact ⟨s, loaded, (settings _ _).trans (by decide +kernel), (settings _ _).trans (by decide +kernel),
    (settings _ _).trans (by decide +kernel), started "signer.toml" _ rfl⟩

section Depth

def nestedArray : ℕ → Value
  | 0 => .array []
  | n + 1 => .array [nestedArray n]

def nestedChars : ℕ → List Char
  | 0 => ['[', ']']
  | n + 1 => '[' :: (nestedChars n ++ [']'])

theorem spells_nestedArray (limit n : ℕ) : Spells limit (n + 1) (nestedChars n) (.value (nestedArray n)) := by
  induction n with
  | zero => exact .noItems .nil
  | succ n ih =>
    have item : Spells limit (n + 1) (nestedChars n ++ [] ++ [']']) (.items [nestedArray n]) := .last ih .nil
    rw [List.append_nil] at item
    exact .array (g := []) .nil item

/-- An unknown key with arrays in each other, a hundred deep. -/
def deepText : String := String.ofList ("x = ".toList ++ nestedChars 99)

/-- A file that sets nothing, written by the rules and without a clash, is refused for the depth of a value
that no setting has. -/
theorem deep_unknown_key_refused :
    Written 100 deepText [.entry ["x"] (nestedArray 99)] ∧ Coherent [] [] [.entry ["x"] (nestedArray 99)] ∧
      Gives default (fun _ _ => false) [.entry ["x"] (nestedArray 99)] ∧ parse deepText = .error .syntaxFault := by
  have chars : deepText.toList = "x = ".toList ++ nestedChars 99 := String.toList_ofList
  refine ⟨?_, by decide, by decide +kernel, ?_⟩
  · have none' : Blanks [] := by decide
    have space : Blanks [' '] := by decide
    have line : Line 100 _ (some (.entry ["x"] (nestedArray 99))) :=
      .entry (.single none' (.bare (by decide +kernel)) space) (by decide) space (spells_nestedArray 100 99)
        (.mk none' .none)
    have lines : Lines 100 _ [.entry ["x"] (nestedArray 99)] := .last line
    rw [Written, chars]
    convert lines using 1
    decide +kernel
  · have refused : Toml.parse? deepText = none := by
      rw [Toml.parse?, chars]
      exact Option.isNone_iff_eq_none.mp (by decide +kernel)
    rw [parse, refused]
    rfl

end Depth

end Settings

end Countersign
