-- The extension names that are common. A list may hold others; they are used just the same,
-- and marked as new where a table shows them.

namespace Dialect.Format

def knownNames : List String :=
  ["abbreviations", "all_symbols_escapable", "amuse", "angle_brackets_escapable",
    "ascii_identifiers", "auto_identifiers", "autolink_bare_uris", "backtick_code_blocks",
    "blank_before_blockquote", "blank_before_header", "bracketed_spans", "citations",
    "compact_definition_lists", "definition_lists", "east_asian_line_breaks", "emoji",
    "empty_paragraphs", "epub_html_exts", "escaped_line_breaks", "example_lists", "fancy_lists",
    "fenced_code_attributes", "fenced_code_blocks", "fenced_divs", "footnotes",
    "four_space_rule", "gfm_auto_identifiers", "grid_tables", "gutenberg", "hard_line_breaks",
    "header_attributes", "ignore_line_breaks", "implicit_figures", "implicit_header_references",
    "inline_code_attributes", "inline_notes", "intraword_underscores", "latex_macros",
    "line_blocks", "link_attributes", "lists_without_preceding_blankline", "literate_haskell",
    "markdown_attribute", "markdown_in_html_blocks", "mmd_header_identifiers",
    "mmd_link_attributes", "mmd_title_block", "multiline_tables", "native_divs",
    "native_numbering", "native_spans", "ntb", "old_dashes", "pandoc_title_block", "pipe_tables",
    "raw_attribute", "raw_html", "raw_tex", "shortcut_reference_links", "simple_tables", "smart",
    "space_in_atx_header", "spaced_reference_links", "startnum", "strikeout", "styles",
    "subscript", "superscript", "table_captions", "task_lists", "tex_math_dollars",
    "tex_math_double_backslash", "tex_math_single_backslash", "yaml_metadata_block"]

def isKnown (name : String) : Bool :=
  knownNames.contains name

end Dialect.Format
