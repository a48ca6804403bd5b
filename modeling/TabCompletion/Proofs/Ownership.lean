import TabCompletion.Installer.Recognition
import TabCompletion.Proofs.Line
import TabCompletion.Proofs.Utf8
import TabCompletion.Zsh.Compile

namespace TabCompletion

theorem ownershipHeader_unbroken : ∀ c ∈ Product.ownershipHeader, isLineBreak c = false := by
  have unbroken : Product.ownershipHeader.all (fun c => !isLineBreak c) = true := by decide
  simpa using unbroken

/-- A script is ours whatever stands before the line of the header and after it. -/
theorem isOwnedText_of_header (before rest : Text) :
    isOwnedText (before ++ '\n' :: (Product.ownershipHeader ++ '\n' :: rest)).unifyNewlines = true := by
  have without : '\r' ∉ Product.ownershipHeader ++ ['\n'] := by decide
  obtain ⟨first, unified⟩ :=
    Text.unifyNewlines_append_newline before (Product.ownershipHeader ++ '\n' :: rest)
  have header := Text.unifyNewlines_append without rest
  rw [List.append_assoc, List.append_assoc] at header
  simp only [List.cons_append, List.nil_append] at header
  rw [unified, header, isOwnedText, Text.lines_append_newline,
    Text.lines_of_line ownershipHeader_unbroken]
  simp

namespace Zsh

theorem Script.text_header (script : Script) :
    ∃ before rest, script.text = before ++ '\n' :: (Product.ownershipHeader ++ '\n' :: rest) := by
  obtain ⟨tag, about, others, lines⟩ :
      ∃ tag about others, script.lines = tag :: [] :: about :: Product.ownershipHeader :: others :=
    ⟨_, _, _, rfl⟩
  refine ⟨tag ++ '\n' :: '\n' :: about, others.flatMap (· ++ ['\n']), ?_⟩
  rw [text, lines]
  simp

end Zsh

theorem isOwnedBytes_generate (target : Zsh.Target) (commands : List Command) :
    isOwnedBytes (Utf8.encode (target.generate commands)) = true := by
  obtain ⟨before, rest, text⟩ := (target.compile commands).text_header
  rw [isOwnedBytes, Utf8.decodeLossy_encode, Zsh.Target.generate, text]
  exact isOwnedText_of_header before rest

end TabCompletion
