import ScoreFilter.Main
import ScoreFilter.Proofs.Cursor.Acceptance
import ScoreFilter.Proofs.Cursor.Replacement
import ScoreFilter.Proofs.Cursor.Typing
import ScoreFilter.Proofs.Ranking
import ScoreFilter.Proofs.Cursor.Insertion
import ScoreFilter.Proofs.Cursor.Comparison
import ScoreFilter.Proofs.Cursor.Member
import ScoreFilter.Proofs.Cursor.Connector
import ScoreFilter.Proofs.Cursor.Landing
import ScoreFilter.Proofs.Cursor.Truncation
import ScoreFilter.Proofs.Reordering
import ScoreFilter.Proofs.CommandLine.Changes
import ScoreFilter.Proofs.CommandLine.Faults
import ScoreFilter.Proofs.CommandLine.Isolation
import ScoreFilter.Proofs.Token.Printing
import ScoreFilter.Proofs.Token.Quotes
import ScoreFilter.Proofs.Documents
import ScoreFilter.Proofs.Cursor.Call
import ScoreFilter.Proofs.Cursor.Scorer
import ScoreFilter.Proofs.Labels
import ScoreFilter.Proofs.Report.Underline
import ScoreFilter.Proofs.Token.Recoloring
import ScoreFilter.Proofs.Report.Color
import ScoreFilter.Proofs.Report.Completions
import ScoreFilter.Proofs.Token.Keywords
import ScoreFilter.Proofs.Token.TableOrder
import ScoreFilter.Proofs.Cursor.Resolution
