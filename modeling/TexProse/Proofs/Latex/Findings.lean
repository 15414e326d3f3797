import TexProse.Proofs.Latex.Origin
import TexProse.Proofs.Tagging.Excerpt

/-!
# Findings in a document

A report quotes what a finding is about, with the rest of the segments around it. The exception is a finding
that ends inside a rendering: the end stands for the start of what was rendered, so the quotation stops there.
Main statement: `excerpt_of_finding`.
-/

namespace TexProse.Latex
variable {π : Type} [Package π] {settings : Settings}

/-- Every finding in the prose of a document can be reported. Unless it ends inside a rendering that begins
behind its start, the excerpt contains the trimmed text that it is about. If it does end there, the excerpt
begins with the segment of its start and stops right before the rendering. -/
theorem excerpt_of_finding {packages : Chain π} {text : String} {document : Document π}
    (h : (Document.withPackages settings packages text).read = (.ok (), document)) :
    ∃ map spans transcript, document.map = .ok map ∧ map.spans = .ok spans ∧
      map.transcript = .ok transcript ∧
      ∀ finding : Finding, finding.first < finding.stop → finding.stop ≤ transcript.prose.length →
        ∃ report, Report.ofFinding map transcript finding = .ok report ∧
          ((∀ closing inside, Span.Supplies spans closing inside finding.stop → closing.tag ≠ .text →
              0 < inside → finding.stop ≤ finding.first + inside) →
            (trim ((Source.ofString transcript.prose).slice finding.first finding.stop)).toList <:+:
              report.excerpt.toList) ∧
          ∀ opening inside closing inside', Span.Supplies spans opening inside finding.first →
            Span.Supplies spans closing inside' finding.stop → closing.tag ≠ .text →
            finding.first + inside' < finding.stop →
            report.excerpt = trim ((Source.ofString transcript.prose).slice (finding.first - inside)
              (finding.stop - inside')) := by
  obtain ⟨map, ribbon, hmap, -, hcompletes, hprojects⟩ := Document.exists_projects h
  have hprose : (Transcript.mk (ribbon.spans.map Span.piece)).prose =
      String.join (ribbon.spans.map Span.prose) := Span.join_prose_piece ribbon.spans
  refine ⟨map, ribbon.spans, _, hmap, hprojects.spans, hprojects.transcript_eq, ?_⟩
  intro finding hlt hstop
  rw [hprose] at hstop ⊢
  have hfull : ∀ stretch ∈ ribbon, stretch.chars ≠ [] := by
    apply hcompletes.full
    -- a text without characters has no prose for the finding to be in
    by_contra hlength
    rw [hcompletes.eq_single (by omega)] at hstop
    exact Nat.not_lt_zero _ (Nat.lt_of_lt_of_le hlt hstop)
  have hplain {span : Span Tag} : SegmentTag.isPlain span.tag = false ↔ span.tag ≠ .text :=
    decide_eq_false_iff_not
  obtain ⟨report, hreport, hexcerpt⟩ := Report.exists_ofFinding hprojects.spans
    ⟨ribbon.spans.map Span.piece⟩ finding
  refine ⟨report, hreport, ?_, ?_⟩
  · intro hnot
    have hquoted := Finding.slice_isInfix_touched hfull hlt hstop fun closing inside hclosing hmarkup =>
      hnot closing inside hclosing (hplain.mp hmarkup)
    rw [hexcerpt, TagMap.proseOf, toList_trim, toList_trim]
    exact trimChars_isInfix hquoted
  · intro opening inside closing inside' hopening hclosing hmarkup hbehind
    rw [hexcerpt, TagMap.proseOf,
      Finding.join_touched_of_rendering hfull hopening hclosing (hplain.mpr hmarkup) hbehind]

theorem excerpt_of_finding_emphasis :
    ∃ document map transcript whole part,
      (Document.withPackages {} (Chain.bundled {}) "a \\emph{an apple}").read = (.ok (), document) ∧
        document.map = .ok map ∧ map.transcript = .ok transcript ∧ transcript.prose = "a an apple" ∧
        Report.ofFinding map transcript { first := 0, stop := 10, message := "" } = .ok whole ∧
        "a an apple".toList <:+: whole.excerpt.toList ∧
        Report.ofFinding map transcript { first := 0, stop := 4, message := "" } = .ok part ∧
        part.excerpt = "a" := by
  have hok : (Document.withPackages {} (Chain.bundled {}) "a \\emph{an apple}").read.1.isOk = true := by
    decide +kernel
  have htold : ((Document.withPackages {} (Chain.bundled {}) "a \\emph{an apple}").read.2.map.bind
      TagMap.spans).toOption = some [⟨⟨0, .text, none⟩, 1, "a"⟩, ⟨⟨1, .space, some " "⟩, 2, " "⟩,
        ⟨⟨2, .command, none⟩, 8, "\\emph\x7b"⟩, ⟨⟨8, .argument, some "an apple"⟩, 16, "an apple"⟩,
        ⟨⟨16, .command, none⟩, 17, "\x7d"⟩] := by
    decide +kernel
  have hseen : ((Document.withPackages {} (Chain.bundled {}) "a \\emph{an apple}").read.2.map.bind
      TagMap.transcript).toOption.map Transcript.prose = some "a an apple" := by
    decide +kernel
  obtain ⟨document, hread⟩ := Document.exists_of_isOk hok
  obtain ⟨map, spans, transcript, hmap, hspans, htranscript, hfindings⟩ := excerpt_of_finding hread
  rw [hread] at htold hseen
  change (document.map.bind TagMap.spans).toOption = _ at htold
  change (document.map.bind TagMap.transcript).toOption.map Transcript.prose = _ at hseen
  rw [hmap] at htold hseen
  change map.spans.toOption = _ at htold
  change map.transcript.toOption.map Transcript.prose = _ at hseen
  rw [hspans] at htold
  rw [htranscript] at hseen
  obtain rfl := Option.some.inj htold
  have hprose : transcript.prose = "a an apple" := Option.some.inj hseen
  rw [hprose] at hfindings
  obtain ⟨whole, hwhole, hquoted, -⟩ :=
    hfindings { first := 0, stop := 10, message := "" } (by decide) (by decide)
  obtain ⟨part, hpart, -, hcut⟩ := hfindings { first := 0, stop := 4, message := "" } (by decide) (by decide)
  refine ⟨document, map, transcript, whole, part, hread, hmap, htranscript, hprose, hwhole, ?_, hpart, ?_⟩
  · apply hquoted
    intro closing inside hclosing
    exact absurd hclosing.lt_length (by decide)
  · exact hcut _ 0 _ 2 ⟨[], _, rfl, rfl, by decide⟩ ⟨[_, _, _], _, rfl, by decide, by decide⟩ (by decide)
      (by decide)

/-- The finding ends inside the rendering of an argument, and its excerpt has nothing of the argument. -/
theorem rendering_not_quoted :
    ((Document.withPackages {} (Chain.bundled {}) "a \\emph{an apple}").read.2.map.bind fun map =>
        map.transcript.bind fun transcript =>
          (Report.ofFinding map transcript { first := 0, stop := 4, message := "" }).map fun report =>
            (trim ((Source.ofString transcript.prose).slice 0 4), report.excerpt)).toOption =
        some ("a an", "a") ∧
      ¬ "a an".toList <:+: "a".toList := by
  decide +kernel

end TexProse.Latex
