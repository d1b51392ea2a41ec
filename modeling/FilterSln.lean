import FilterSln.Negotiation
import FilterSln.Series
import FilterSln.Dump
import FilterSln.RowLoop
import FilterSln.FormatBlock
import FilterSln.OutputPins
import FilterSln.Lengths
import FilterSln.SourceFilter
import FilterSln.Waiting
import FilterSln.Layout
import FilterSln.SourceCalls
import FilterSln.Lists
import FilterSln.QueuedCalls
import FilterSln.MulDiv
import FilterSln.Pulled
