import Mathlib.Data.Nat.Notation
import Countersign.Daemon.Program
import Countersign.Proofs.Toml.Sections

/-!
# Settings read back

A file of settings is read back as the settings that were written, whatever their texts hold. The text of a
file is a header of remarks and four sections that fit a document, so that what is read is a table of what
each section holds; every field is then found in it under its name, and nothing is left to a default.
-/

set_option autoImplicit false

namespace Countersign

open Toml

section Remarks

variable {cs : List Char} {ss : List Statement} {lines : List String}

def IsRemark (line : String) : Prop :=
  line.toList = [] ∨ (line.toList.head? = some '#' ∧ ∀ c ∈ line.toList, isLineChar c = true)

theorem reads_remarks (remarks : ∀ line ∈ lines, IsRemark line) (later : Reads cs ss) :
    Reads ((lines.flatMap fun line => line.toList ++ ['\n']) ++ cs) ss := by
  induction lines with
  | nil => exact later
  | cons line lines ih =>
    have rest := ih fun l hl => remarks l (List.mem_cons_of_mem _ hl)
    rw [List.flatMap_cons, List.append_assoc, List.append_assoc]
    rcases remarks line List.mem_cons_self with empty | ⟨hash, shown⟩
    · rw [empty]
      exact rest.emptyLine
    · cases hl : line.toList with
      | nil => rw [hl] at hash; nomatch hash
      | cons c note =>
        rw [hl] at hash shown
        obtain rfl : c = '#' := Option.some.inj hash
        exact rest.comment fun d hd => shown d (List.mem_cons_of_mem _ hd)

theorem cr_not_mem_remarks (remarks : ∀ line ∈ lines, IsRemark line) :
    '\r' ∉ lines.flatMap fun line => line.toList ++ ['\n'] := by
  intro h
  obtain ⟨line, hl, hc⟩ := List.mem_flatMap.mp h
  rcases List.mem_append.mp hc with hc | hc
  · rcases remarks line hl with empty | ⟨-, shown⟩
    · rw [empty] at hc
      nomatch hc
    · exact absurd (shown _ hc) (by decide)
  · exact absurd hc (by decide)

end Remarks

namespace Settings

theorem header_remarks : ∀ line ∈ header, IsRemark line := by
  have all : ∀ line ∈ header, line.toList = [] ∨
      (line.toList.head? = some '#' ∧ line.toList.all isLineChar = true) := by decide +kernel
  simpa only [IsRemark, List.all_eq_true] using all

def layout : List (String × List String) :=
  [("btc-config", nodeFields), ("btc-signer-config", nodeFields ++ ["signer-type"]),
   ("server-config", ["host", "port", "request-timeout", "max-content-length", "hmac-key"]),
   ("metrics", ["host", "port"])]

theorem sections_layout (s : Settings) :
    s.sections.map (fun part => (part.name, part.settings.map Prod.fst)) = layout := rfl

theorem layout_bare : ∀ part ∈ layout, Bare part.1 ∧ (∀ name ∈ part.2, Bare name) ∧ part.2.Nodup := by
  have all : ∀ part ∈ layout, (part.1.toList ≠ [] ∧ part.1.toList.all isBareKeyChar = true) ∧
      (∀ name ∈ part.2, name.toList ≠ [] ∧ name.toList.all isBareKeyChar = true) ∧ part.2.Nodup := by
    decide +kernel
  simpa only [Bare, List.all_eq_true] using all

variable {s : Settings}

theorem numbers_fit (narrow : s.server.requestTimeout.toNat < integerBound) :
    ∀ part ∈ s.sections, ∀ p ∈ part.settings, p.2.Fits := by
  have port : s.server.port.toNat < integerBound :=
    (UInt16.toNat_lt _).trans (by decide)
  have length : s.server.maxContentLength.toNat < integerBound :=
    (UInt32.toNat_lt _).trans (by decide)
  have metricsPort : s.metrics.port.toNat < integerBound :=
    (UInt32.toNat_lt _).trans (by decide)
  simp only [sections, nodeEntries, List.cons_append, List.nil_append, List.forall_mem_cons,
    Setting.fits_text, Setting.fits_number, true_and, narrow, port, length, metricsPort]
  simp

theorem sections_fit (narrow : s.server.requestTimeout.toNat < integerBound) :
    ∀ part ∈ s.sections, part.Fits := by
  intro part hp
  have placed : (part.name, part.settings.map Prod.fst) ∈ layout :=
    sections_layout s ▸ List.mem_map_of_mem hp
  obtain ⟨bare, names, distinct⟩ := layout_bare _ placed
  refine ⟨bare, fun p hq => ⟨names _ (List.mem_map_of_mem hq), numbers_fit narrow part hp p hq⟩, distinct⟩

theorem sections_distinct (s : Settings) : (s.sections.map Section.name).Nodup := by
  have names : (layout.map Prod.fst).Nodup := by decide
  exact names

theorem nodeOf?_written (n d : NodeSettings) (more : Table) :
    nodeOf? (((nodeEntries n).map fun p => (p.1, p.2.value)) ++ more) d = some n := rfl

theorem ofText?_text (t : SignerType) : SignerType.ofText? t.text = some t := by
  cases t <;> decide

theorem u16?_toNat (n : UInt16) : Value.u16? (Setting.number n.toNat).value = some n := by
  change (if n.toNat < UInt16.size then some (UInt16.ofNat n.toNat) else none) = _
  rw [if_pos n.toNat_lt, UInt16.ofNat_toNat]

theorem u32?_toNat (n : UInt32) : Value.u32? (Setting.number n.toNat).value = some n := by
  change (if n.toNat < UInt32.size then some (UInt32.ofNat n.toNat) else none) = _
  rw [if_pos n.toNat_lt, UInt32.ofNat_toNat]

theorem u64?_toNat (n : UInt64) : Value.u64? (Setting.number n.toNat).value = some n := by
  change (if n.toNat < UInt64.size then some (UInt64.ofNat n.toNat) else none) = _
  rw [if_pos n.toNat_lt, UInt64.ofNat_toNat]

@[simp]
theorem string?_text (t : String) : Value.string? (Setting.text t).value = some t := rfl

theorem signer?_written (s : SignerSettings) :
    signer? (.table .explicit
      (((nodeEntries s.node).map fun p => (p.1, p.2.value)) ++
        [("signer-type", (Setting.text s.type.text).value)])) = some s := by
  have type : signerType? (Setting.text s.type.text).value = some s.type := ofText?_text s.type
  simp only [signer?, Value.record?, Option.bind_eq_bind, Option.bind_some, nodeOf?_written]
  simp only [nodeEntries, Table.field?, List.map_cons, List.map_nil, List.cons_append, List.nil_append,
    List.lookup_cons]
  simp [type]

theorem server?_written (s : ServerSettings) :
    server? (.table .explicit [("host", (Setting.text s.host).value),
      ("port", (Setting.number s.port.toNat).value),
      ("request-timeout", (Setting.number s.requestTimeout.toNat).value),
      ("max-content-length", (Setting.number s.maxContentLength.toNat).value),
      ("hmac-key", (Setting.text s.hmacKey).value)]) = some s := by
  simp [server?, Value.record?, Table.field?, List.lookup_cons, u16?_toNat, u32?_toNat, u64?_toNat]

theorem metrics?_written (s : MetricsSettings) :
    metrics? (.table .explicit [("host", (Setting.text s.host).value),
      ("port", (Setting.number s.port.toNat).value)]) = some s := by
  simp [metrics?, Value.record?, Table.field?, List.lookup_cons, u32?_toNat]

theorem node?_written (n : NodeSettings) :
    node? (.table .explicit ((nodeEntries n).map fun p => (p.1, p.2.value))) = some n := rfl

theorem ofTable?_written (s : Settings) : ofTable? (s.sections.map Section.table) = some s := by
  have node := node?_written s.node
  have signer := signer?_written s.signer
  have server := server?_written s.server
  have metrics := metrics?_written s.metrics
  simp only [ofTable?, sections, Section.table, Section.entries, Table.field?, List.map_cons, List.map_nil,
    List.lookup_cons]
  simp [node, signer, server, metrics]

theorem parse_written (narrow : s.server.requestTimeout.toNat < integerBound) :
    parse (String.ofList (headerChars ++ sectionsChars s.sections)) = .ok s := by
  have fits := sections_fit narrow
  have reads : Reads (headerChars ++ sectionsChars s.sections) (s.sections.flatMap Section.statements) :=
    reads_remarks header_remarks (Section.reads_all fits)
  have breaks : '\r' ∉ headerChars ++ sectionsChars s.sections := fun h =>
    (List.mem_append.mp h).elim (cr_not_mem_remarks header_remarks) (cr_not_mem_sectionsChars fits)
  have unmarked : (headerChars ++ sectionsChars s.sections).head? ≠ some '\ufeff' := by
    have first : headerChars.head? = some '#' := by decide +kernel
    rw [List.head?_append, first]
    simp
  have table : Toml.parse? (String.ofList (headerChars ++ sectionsChars s.sections)) =
      some (s.sections.map Section.table) := by
    rw [Toml.parse?, String.toList_ofList, parseChars?_of_reads reads unmarked breaks]
    exact ofStatements?_sections fits (sections_distinct s)
  rw [parse, table, Option.bind_some, ofTable?_written]

theorem outcome_readText {path text : String} {wrap : String → DaemonError}
    {answer : (q : System.Question) → System.Answer q}
    (holds : answer (SystemCall.readFile path) = Except.ok (Utf8.encode text)) :
    (Daemon.readText path wrap).run.outcome answer = .ok text := by
  change (Dialogue.bind (Daemon.attempt (.readFile path) id wrap).run _).outcome answer = _
  have content : (Daemon.attempt (.readFile path) id wrap).run.outcome answer = .ok (Utf8.encode text) := by
    change ((answer (SystemCall.readFile path)).mapError wrap) = _
    rw [holds]
    rfl
  rw [Dialogue.outcome_bind, content]
  simp only [ExceptT.bindCont, Utf8.decode?_encode]
  rfl

/-- Settings are written if their timeout is an integer of a file, and a file of their text is loaded as
those settings. -/
theorem written_read_back (s : Settings) :
    ((∃ text, s.text = .ok text) ↔ s.server.requestTimeout.toNat < Nat.pow 2 63) ∧
      ∀ text, s.text = .ok text → parse text = .ok s ∧
        ∀ (path : String) (answer : (q : System.Question) → System.Answer q),
          answer (SystemCall.readFile path) = Except.ok (Utf8.encode text) →
          (Daemon.loadPlan path).run.outcome answer = s.check.mapError DaemonError.loadConfig := by
  have narrow {text : String} (h : s.text = .ok text) :
      s.server.requestTimeout.toNat < integerBound := by
    by_contra wide
    rw [Settings.text, if_neg wide] at h
    nomatch h
  refine ⟨⟨fun ⟨text, h⟩ => narrow h, fun fits => ⟨_, if_pos fits⟩⟩, fun text h => ?_⟩
  have loaded : parse text = .ok s := by
    have written := h
    rw [Settings.text, if_pos (narrow h)] at written
    rw [← Except.ok.inj written, parse_written (narrow h)]
  refine ⟨loaded, fun path answer holds => ?_⟩
  change Dialogue.outcome answer (Dialogue.bind (Daemon.readText path _).run _) = _
  rw [Dialogue.outcome_bind, outcome_readText holds]
  change (parse text >>= check).mapError DaemonError.loadConfig = _
  rw [loaded]
  rfl

namespace Sample

def awkward : Settings :=
  { node :=
      { access := { host := "", user := "a\"b\\c", pass := "it's\n\"quoted\"" }
        network := "\n'\\''" }
    signer :=
      { node :=
          { access := { host := "\x00\x7f\t", user := "\"\"\"\n'''\\", pass := "'\"\"" }
            network := "\ufeffregtest" }
        type := .privkey }
    server :=
      { host := "::1", port := 65535, requestTimeout := 9223372036854775807
        maxContentLength := 4294967295, hmacKey := "\r\n\r\n" }
    metrics := { host := "'''", port := 4294967295 } }

def holding (content : Bytes) : (q : System.Question) → System.Answer q
  | SystemCall.probe _ => true
  | SystemCall.readFile _ => Except.ok content
  | SystemCall.createDirectories _ => Except.ok ()
  | SystemCall.writeFile _ _ => Except.ok ()
  | SystemCall.keepPrivate _ => Except.ok ()
  | SystemCall.resolve _ => Except.ok ()
  | SystemCall.serve _ _ => Served.stopped none
  | SystemCall.print _ => ()
  | SystemCall.report _ => ()

end Sample

theorem awkward_read_back :
    ∃ text, Sample.awkward.text = .ok text ∧ parse text = .ok Sample.awkward ∧
      (Daemon.loadPlan "signer.toml").run.outcome (Sample.holding (Utf8.encode text)) =
        Sample.awkward.check.mapError DaemonError.loadConfig := by
  obtain ⟨writes, reads⟩ := written_read_back Sample.awkward
  obtain ⟨text, written⟩ := writes.mpr (by decide)
  obtain ⟨loaded, started⟩ := reads text written
  exact ⟨text, written, loaded, started "signer.toml" _ rfl⟩

end Settings

end Countersign
