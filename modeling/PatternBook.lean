import PatternBook.FileTree
import PatternBook.Main
import PatternBook.Proofs.AlikeSound
import PatternBook.Proofs.RenderSound
import PatternBook.Proofs.TrailingSound
import PatternBook.Proofs.MergeSound
import PatternBook.Proofs.SplitSound
import PatternBook.Proofs.ScanSound
import PatternBook.Proofs.TurnSound
import PatternBook.Proofs.StrictSound
import PatternBook.Proofs.JoinSound
import PatternBook.Proofs.IndentLemmas
import PatternBook.Proofs.FoldedLemmas
import PatternBook.Proofs.GrammarSound
import PatternBook.Proofs.NormalSound
import PatternBook.Proofs.BatchSound
import PatternBook.Proofs.DeclarationSound
import PatternBook.Proofs.IndentSound
import PatternBook.Proofs.DedentSound
import PatternBook.Proofs.FoldedSound
import PatternBook.Proofs.PairSound
import PatternBook.Proofs.JsonSound
import PatternBook.Proofs.ExportSound
import PatternBook.Proofs.AcceptSound
import PatternBook.Proofs.SettingsSound
import PatternBook.Proofs.CursorSound
import PatternBook.Proofs.TagSound
